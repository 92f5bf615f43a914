import Deepstream.Client.Objects
import Deepstream.Client.Socket
import Deepstream.ParserCorrect
import Deepstream.Reentrant.Muted

/-!
Several frames in one buffer.

`process_messages` hands over the data of all frames it could read at once.
Decoding respects a cut after a record separator, so a client that is given
frames in one buffer does what it does when it is given one frame after the
other, except that it reports the errors of all frames before it handles any of
the messages.
-/

namespace Deepstream

open Reentrant (Conduct EndsAlike Mute Prog evaluate)

/-- A buffer that does not end within a message -/
def Terminated (x : Buffer) : Prop :=
  ∀ c ∈ x.getLast?, c = asciiRecordSeparator

instance (x : Buffer) : Decidable (Terminated x) :=
  inferInstanceAs (Decidable (∀ c ∈ x.getLast?, c = asciiRecordSeparator))

theorem Terminated.pieces_append {x : Buffer} (hx : Terminated x) (y : Buffer) :
    Delimited.pieces asciiRecordSeparator (x ++ y) =
      Delimited.pieces asciiRecordSeparator x ++ Delimited.pieces asciiRecordSeparator y := by
  induction x using List.reverseRecOn with
  | nil => rfl
  | append_singleton x c _ =>
      obtain rfl := hx c (by rw [List.getLast?_concat]; rfl)
      rw [List.append_assoc, List.singleton_append]
      exact Delimited.pieces_append_cons _ x y

/-- A buffer that does not end within a message is empty or begins with a piece. -/
theorem Terminated.cases {x : Buffer} (hx : Terminated x) :
    x = [] ∨ ∃ u v, asciiRecordSeparator ∉ u ∧ x = u ++ [asciiRecordSeparator] ++ v ∧
      Terminated v := by
  obtain hnot | ⟨u, v, hu, rfl⟩ := Delimited.cut_cases asciiRecordSeparator x
  · cases hlast : x.getLast? with
    | none => exact .inl (List.getLast?_eq_none_iff.mp hlast)
    | some c =>
        cases hx c hlast
        exact absurd (List.mem_of_getLast? hlast) hnot
  · refine .inr ⟨u, v, hu, by simp, fun c hc => hx c ?_⟩
    rw [List.getLast?_append, List.getLast?_cons, Option.mem_def.mp hc]
    rfl

theorem Terminated.isBatch_append {x : Buffer} (hx : Terminated x) (y : Buffer) :
    IsBatch (x ++ y) ↔ IsBatch x ∧ IsBatch y := by
  induction hn : x.length using Nat.strong_induction_on generalizing x with
  | _ n ih =>
      obtain rfl | ⟨u, v, hu, rfl, hv⟩ := hx.cases
      · exact ⟨fun h => ⟨⟨[], rfl⟩, h⟩, And.right⟩
      · have hcut := Delimited.eq_flatMap_iff asciiRecordSeparator _ text_is_piece
          (u ++ [asciiRecordSeparator])
        have hlt : v.length < n := by
          rw [← hn]
          simp
          omega
        unfold IsBatch at ih ⊢
        rw [List.append_assoc _ v y, hcut _ ⟨u, hu, rfl⟩, hcut _ ⟨u, hu, rfl⟩, ih _ hlt hv rfl,
          and_assoc]

open Classical in
/-- The texts of sentences among the pieces of a buffer -/
noncomputable def sentenceTexts (x : Buffer) : List Buffer :=
  (Delimited.pieces asciiRecordSeparator x).filter fun text => ∃ s : Sentence, s.text = text

theorem referencePieces_texts (offset : Nat) (x : Buffer) :
    (referencePieces offset x).map Prod.snd = sentenceTexts x := by
  unfold referencePieces sentenceTexts
  rw [← Delimited.map_snd_located offset (Delimited.pieces asciiRecordSeparator x),
    List.filter_map]
  rw [Delimited.map_snd_located]
  rfl

section Decoded
variable [Build]

theorem MessageProxy.get_of_le {m : MessageProxy} {i : Nat} (h : m.numArguments ≤ i) :
    m.get i = (check .messageProxy "i < arguments_.size()" (i < m.numArguments) >>= fun _ =>
      .error .outOfBounds) := by
  unfold get
  rw [List.getElem?_eq_none h]
  rfl

/-- What a handler sees of a message is determined by the sentence it was read from. -/
theorem Parser.Reads.view_eq {m m' : MessageProxy} {offset offset' : Nat} {s s' : Sentence}
    (h : Parser.Reads m offset s) (h' : Parser.Reads m' offset' s')
    (htext : s.text = s'.text) : m.view = m'.view := by
  obtain ⟨hheader, harguments⟩ := text_injective s s' htext
  have hnum : m.numArguments = m'.numArguments := by
    rw [h.numArguments, h'.numArguments, harguments]
  have hget : m.get = m'.get := by
    funext i
    by_cases hi : i < s.arguments.length
    · rw [h.get i hi, h'.get i (harguments ▸ hi)]
      simp only [harguments]
    · have hle := Nat.not_lt.mp hi
      rw [MessageProxy.get_of_le (h.numArguments.trans_le hle),
        MessageProxy.get_of_le (hnum ▸ h.numArguments.trans_le hle), hnum]
  unfold MessageProxy.view
  rw [h.header, h'.header, hheader, hnum, hget]

/-- A message read from a text -/
def Shows (v : Message) (text : Buffer) : Prop :=
  ∃ (m : MessageProxy) (offset : Nat) (s : Sentence), s.text = text ∧ Parser.Reads m offset s ∧
    v = m.view

theorem shows_unique : Relator.LeftUnique Shows := by
  rintro v _ v' ⟨m, offset, s, rfl, hreads, rfl⟩ ⟨m', offset', s', htext, hreads', rfl⟩
  exact hreads.view_eq hreads' htext.symm

/-- What `on_message` is given by the parser, and whether there is nothing to report -/
def decoded (x : Buffer) : Except Failure (List Message × Bool) := do
  let (messages, errors) ← Parser.execute (x ++ [0, 0])
  return (messages.map MessageProxy.view, errors.isEmpty)

theorem exists_decoded (x : Buffer) : ∃ messages clean,
    decoded x = .ok (messages, clean) ∧ List.Forall₂ Shows messages (sentenceTexts x) ∧
      (clean = true ↔ IsBatch x) := by
  obtain ⟨messages, errors, hexecute, hread, hbatch⟩ := Parser.execute_eq x
  refine ⟨messages.map MessageProxy.view, errors.isEmpty, ?_, ?_, ?_⟩
  · unfold decoded
    rw [hexecute]
    rfl
  · rw [← referencePieces_texts 0 x, List.forall₂_map_left_iff, List.forall₂_map_right_iff]
    refine hread.imp fun m q hat => ?_
    obtain ⟨s, htext, hreads⟩ := hat.denotes
    exact ⟨m, q.1, s, htext, hreads, rfl⟩
  · rw [List.isEmpty_iff, hbatch]

/-- A stream can be cut after any record separator. -/
theorem decoded_append {x : Buffer} (hx : Terminated x) (y : Buffer) :
    decoded (x ++ y) = (do
      let (messages, clean) ← decoded x
      let (messages', clean') ← decoded y
      return (messages ++ messages', clean && clean')) := by
  obtain ⟨messages, clean, hdecoded, hshows, hclean⟩ := exists_decoded x
  obtain ⟨messages', clean', hdecoded', hshows', hclean'⟩ := exists_decoded y
  obtain ⟨messages'', clean'', hdecoded'', hshows'', hclean''⟩ := exists_decoded (x ++ y)
  have htexts : sentenceTexts (x ++ y) = sentenceTexts x ++ sentenceTexts y := by
    unfold sentenceTexts
    rw [hx.pieces_append, List.filter_append]
  have hmessages : messages'' = messages ++ messages' := by
    apply List.left_unique_forall₂' shows_unique hshows''
    rw [htexts]
    exact List.rel_append hshows hshows'
  have hboth : clean'' = (clean && clean') := by
    rw [Bool.eq_iff_iff, Bool.and_eq_true, hclean, hclean', hclean'', hx.isBatch_append]
  rw [hdecoded, hdecoded', hdecoded'', hmessages, hboth]
  rfl

/-- A stream can be cut after any of its record separators, any number of times. -/
theorem decoded_stream (frames : List Buffer) (rest : Buffer)
    (hframes : ∀ frame ∈ frames, Terminated frame) :
    decoded (frames.flatten ++ rest) = (do
      let parts ← frames.mapM decoded
      let (messages, clean) ← decoded rest
      return ((parts.map Prod.fst).flatten ++ messages, parts.all Prod.snd && clean)) := by
  induction frames with
  | nil =>
      obtain ⟨messages, clean, hdecoded, -⟩ := exists_decoded rest
      change decoded rest = _
      rw [hdecoded]
      rfl
  | cons frame frames ih =>
      obtain ⟨messages, clean, hdecoded, -⟩ := exists_decoded frame
      rw [List.flatten_cons, List.append_assoc,
        decoded_append (hframes frame List.mem_cons_self),
        ih fun f hf => hframes f (List.mem_cons_of_mem _ hf), List.mapM_cons, hdecoded]
      cases frames.mapM decoded with
      | error f => rfl
      | ok parts =>
          cases decoded rest with
          | error f => rfl
          | ok last =>
              change Except.ok _ = Except.ok _
              rw [← List.append_assoc, ← Bool.and_assoc]
              rfl

end Decoded

/-- `C|PI+` and `E|EVT|name|Sdata+` in frames of their own -/
def pingAndEventFrames : List Buffer :=
  [fromHumanReadable (bytes "C|PI+"), fromHumanReadable (bytes "E|EVT|name|Sdata+")]

/-- Two messages, and the beginning of a third one -/
theorem decoded_stream_pingAndEvent :
    (∀ frame ∈ pingAndEventFrames, Terminated frame) ∧
    @decoded debug (pingAndEventFrames.flatten ++ bytes "E") = (do
      let parts ← pingAndEventFrames.mapM (@decoded debug)
      let (messages, clean) ← @decoded debug (bytes "E")
      return ((parts.map Prod.fst).flatten ++ messages, parts.all Prod.snd && clean)) :=
  ⟨by decide +kernel, @decoded_stream debug _ _ (by decide +kernel)⟩

namespace Connection

section Handlers
variable [Build] {n : Nat} {m m' : MessageProxy}

theorem transition_of_view (h : m.view = m'.view) : transition n m = transition n m' := by
  have hheader : m.header = m'.header := congrArg Message.header h
  unfold transition
  rw [h, hheader]

theorem handleConnectionResponse_of_view (h : m.view = m'.view) :
    handleConnectionResponse n m = handleConnectionResponse n m' := by
  have hheader : m.header = m'.header := congrArg Message.header h
  have hnum : m.numArguments = m'.numArguments := congrArg Message.numArguments h
  have hget : m.get = m'.get := congrArg Message.get h
  unfold handleConnectionResponse connectionAction
  rw [transition_of_view h, hheader, hnum, hget]

theorem handleAuthenticationResponse_of_view (h : m.view = m'.view) :
    handleAuthenticationResponse n m = handleAuthenticationResponse n m' := by
  have hheader : m.header = m'.header := congrArg Message.header h
  have hnum : m.numArguments = m'.numArguments := congrArg Message.numArguments h
  have hget : m.get = m'.get := congrArg Message.get h
  unfold handleAuthenticationResponse authenticationAction
  rw [transition_of_view h, hheader, hnum, hget]

/-- A message is handled by what can be seen of it; where it lies is only noted. -/
theorem muted_handleMessage (mute : Mute interface) (h : m.view = m'.view) :
    (handleMessage n m).muted mute = (handleMessage n m').muted mute := by
  have hheader : m.header = m'.header := congrArg Message.header h
  unfold handleMessage
  refine congrArg Prog.get (funext fun c => ?_)
  change (_ >>= fun _ => _ : Program Unit).muted mute =
    (_ >>= fun _ => _ : Program Unit).muted mute
  rw [hheader, h, handleConnectionResponse_of_view h, handleAuthenticationResponse_of_view h]
  rfl

end Handlers
end Connection

/-- The error handler is told of what the parser has found, and does nothing. -/
def parserReports : Mute interface
  | .errorHandler (.parserError _ _) _ => some ()
  | _ => none

theorem IsBatch.terminated {x : Buffer} (h : IsBatch x) : Terminated x := by
  obtain ⟨ss, rfl⟩ := h
  induction ss using List.reverseRecOn with
  | nil => exact fun c hc => by cases hc
  | append_singleton ss s _ =>
      intro c hc
      rw [List.flatMap_append, List.flatMap_singleton, text_eq, ← List.append_assoc,
        List.getLast?_concat] at hc
      exact (Option.mem_some_iff.mp hc).symm

theorem isBatch_flatten {frames : List Buffer} (h : ∀ frame ∈ frames, IsBatch frame) :
    IsBatch frames.flatten := by
  induction frames with
  | nil => exact ⟨[], rfl⟩
  | cons frame frames ih =>
      obtain ⟨hframe, hframes⟩ := List.forall_mem_cons.mp h
      rw [List.flatten_cons, hframe.terminated.isBatch_append]
      exact ⟨hframe, ih hframes⟩

section Frames
variable [Build]

/-- The parser finds no error in a frame. -/
def ErrorFree (frame : Buffer) : Prop :=
  (decoded frame).map Prod.snd = .ok true

instance (frame : Buffer) : Decidable (ErrorFree frame) :=
  inferInstanceAs (Decidable ((decoded frame).map Prod.snd = .ok true))

theorem errorFree_iff (frame : Buffer) : ErrorFree frame ↔ IsBatch frame := by
  obtain ⟨messages, clean, hdecoded, -, hclean⟩ := exists_decoded frame
  unfold ErrorFree
  rw [hdecoded, ← hclean]
  exact ⟨fun h => Except.ok.inj h, fun h => congrArg Except.ok h⟩

variable {n : Nat} {mute : Mute interface}

/-- Apart from reports that are not heard, a buffer is handled message by message. -/
theorem muted_onMessage {raw : Buffer} {messages : List MessageProxy} {errors : List Parser.Error}
    (hexecute : Parser.execute (raw ++ [0, 0]) = .ok (messages, errors))
    (hmute : ErrorFree raw ∨ mute = parserReports) :
    (Connection.onMessage n raw).muted mute =
      (Prog.forEach messages (Connection.handleMessage n)).muted mute := by
  have hreports : (Prog.forEach errors fun e => Program.report (.parserError e raw)).muted mute =
      .ret () := by
    apply Prog.muted_forEach_ret
    intro e he
    cases hmute with
    | inl hclean =>
        unfold ErrorFree decoded at hclean
        rw [hexecute] at hclean
        rw [List.isEmpty_iff.mp (Except.ok.inj hclean)] at he
        exact absurd he List.not_mem_nil
    | inr hmute =>
        rw [hmute]
        rfl
  unfold Connection.onMessage
  rw [hexecute]
  change (Prog.forEach errors _ >>= fun _ => Prog.forEach messages _ : Program Unit).muted mute = _
  rw [Prog.muted_bind, hreports]
  rfl

theorem muted_onMessage_append {x : Buffer} (hx : Terminated x) (y : Buffer)
    (hmute : (ErrorFree x ∧ ErrorFree y) ∨ mute = parserReports) :
    (Connection.onMessage n (x ++ y)).muted mute =
      (Connection.onMessage n x >>= fun _ => Connection.onMessage n y).muted mute := by
  obtain ⟨first, errors, hfirst, -⟩ := Parser.execute_eq x
  obtain ⟨second, errors', hsecond, -⟩ := Parser.execute_eq y
  obtain ⟨both, errors'', hboth, -⟩ := Parser.execute_eq (x ++ y)
  have hviews : both.map MessageProxy.view = (first ++ second).map MessageProxy.view := by
    have hdecoded := decoded_append hx y
    unfold decoded at hdecoded
    rw [hfirst, hsecond, hboth] at hdecoded
    rw [List.map_append]
    exact congrArg Prod.fst (Except.ok.inj hdecoded)
  have hclean : ErrorFree (x ++ y) ↔ ErrorFree x ∧ ErrorFree y := by
    rw [errorFree_iff, errorFree_iff, errorFree_iff, hx.isBatch_append]
  calc (Connection.onMessage n (x ++ y)).muted mute
      = (Prog.forEach both (Connection.handleMessage n)).muted mute :=
        muted_onMessage hboth (hmute.imp_left hclean.mpr)
    _ = (Prog.forEach (first ++ second) (Connection.handleMessage n)).muted mute := by
        apply Prog.muted_forEach
        have hforall := List.forall₂_eq_eq_eq.symm ▸ hviews
        rw [List.forall₂_map_left_iff, List.forall₂_map_right_iff] at hforall
        exact hforall.imp fun _ _ h => Connection.muted_handleMessage mute h
    _ = (Connection.onMessage n x >>= fun _ => Connection.onMessage n y).muted mute := by
        rw [Prog.forEach_append, Prog.muted_bind, Prog.muted_bind,
          muted_onMessage hfirst (hmute.imp_left And.left),
          muted_onMessage hsecond (hmute.imp_left And.right)]

theorem unnoted_onMessage_flatten (n : Nat) (frames : List Buffer)
    (hframes : ∀ frame ∈ frames, ErrorFree frame) :
    (Connection.onMessage n frames.flatten).unnoted =
      (Prog.forEach frames (Connection.onMessage n)).unnoted := by
  induction frames with
  | nil =>
      obtain ⟨messages, errors, hexecute, hread, -⟩ := Parser.execute_eq []
      cases hread
      exact muted_onMessage hexecute (.inl ((errorFree_iff []).mpr ⟨[], rfl⟩))
  | cons frame frames ih =>
      obtain ⟨hframe, hrest⟩ := List.forall_mem_cons.mp hframes
      have hbatch := (errorFree_iff frame).mp hframe
      have hflat : ErrorFree frames.flatten := (errorFree_iff _).mpr
        (isBatch_flatten fun frame hmem => (errorFree_iff frame).mp (hrest frame hmem))
      rw [List.flatten_cons, Prog.unnoted, muted_onMessage_append hbatch.terminated _
        (.inl ⟨hframe, hflat⟩), Prog.muted_bind]
      unfold Prog.forEach
      rw [Prog.unnoted, Prog.muted_bind]
      exact congrArg (Prog.bind _) (funext fun _ => ih hrest)

/-- Frames without errors can be handed over in one buffer: the client reads, writes and calls
what it does when it is given one after the other, and no environment can tell. -/
theorem onMessage_frames (n : Nat) (frames : List Buffer)
    (hframes : ∀ frame ∈ frames, ErrorFree frame) :
    (Connection.onMessage n frames.flatten).unnoted =
        (Prog.forEach frames (Connection.onMessage n)).unnoted ∧
      ∀ conduct : Conduct interface, conduct.IgnoresNotes → ∀ w,
        EndsAlike .none (evaluate conduct (Connection.onMessage n frames.flatten) w)
          (evaluate conduct (Prog.forEach frames (Connection.onMessage n)) w) := by
  have hunnoted := unnoted_onMessage_flatten n frames hframes
  exact ⟨hunnoted, fun conduct hconduct w =>
    Reentrant.evaluate_alike hconduct conduct.passes_none hunnoted w⟩

end Frames

theorem onMessage_frames_pingAndEvent :
    (∀ frame ∈ pingAndEventFrames, @ErrorFree debug frame) ∧
    (@Connection.onMessage debug 1 pingAndEventFrames.flatten).unnoted =
      (Prog.forEach pingAndEventFrames (@Connection.onMessage debug 1)).unnoted :=
  ⟨by decide +kernel, (@onMessage_frames debug 1 _ (by decide +kernel)).1⟩

section Append
variable [Build]

/-- A buffer can be cut after any record separator. If there are no errors in either part, nothing
else comes of it; and whatever the errors are, nothing but the reports of them changes, as long as
nothing comes of these. -/
theorem onMessage_append (n : Nat) (x y : Buffer) (hx : Terminated x)
    (conduct : Conduct interface) (w w₁ : World)
    (hfirst : evaluate conduct (Connection.onMessage n x) w = (.done (), w₁)) :
    (ErrorFree x → ErrorFree y → conduct.IgnoresNotes →
      EndsAlike .none (evaluate conduct (Connection.onMessage n (x ++ y)) w)
        (evaluate conduct (Connection.onMessage n y) w₁)) ∧
    (conduct.Overlooks parserReports → conduct.Passes parserReports →
      EndsAlike parserReports (evaluate conduct (Connection.onMessage n (x ++ y)) w)
        (evaluate conduct (Connection.onMessage n y) w₁)) := by
  have hsequence : evaluate conduct
      (Connection.onMessage n x >>= fun _ => Connection.onMessage n y) w =
      evaluate conduct (Connection.onMessage n y) w₁ := by
    rw [Reentrant.evaluate_bind, hfirst]
    rfl
  rw [← hsequence]
  constructor
  · intro hcleanx hcleany hconduct
    exact Reentrant.evaluate_alike hconduct conduct.passes_none
      (muted_onMessage_append hx y (.inl ⟨hcleanx, hcleany⟩)) w
  · intro hconduct hpasses
    exact Reentrant.evaluate_alike hconduct hpasses (muted_onMessage_append hx y (.inr rfl)) w

end Append

/-- The calls of functions that the user has given -/
def Call.isUser : Call → Bool
  | .errorHandler _ _ | .loginCallback _ _ | .subscribeFn _ _ | .listenFn _ _ _
  | .presenceFn _ _ _ | .queryFn _ _ => true
  | _ => false

/-- The invocations of functions that the user has given, newest first -/
def invoked (w : World) : List Call :=
  w.trace.filterMap fun
    | .call c => if c.isUser then some c else none
    | _ => none

theorem overlooks_accepting (mute : Mute interface) :
    (Conduct.quiet accepting).Overlooks mute :=
  fun _ _ c h => ⟨h, by cases c <;> rfl⟩

theorem passes_accepting : (Conduct.quiet accepting).Passes parserReports := by
  intro w c a hmute
  unfold parserReports at hmute
  split at hmute
  · cases hmute
    rfl
  · cases hmute

def isDone : Reentrant.Outcome interface Unit → Bool
  | .done _ => true
  | _ => false

theorem eq_done_of_isDone {r : Reentrant.Outcome interface Unit × World} (h : isDone r.1 = true) :
    r = (.done (), r.2) := by
  obtain ⟨outcome, w⟩ := r
  cases outcome with
  | done => rfl
  | raised | aborted => cases h

/-- A message and half a one, and an event -/
theorem onMessage_append_pingAndHalf : let _ : Build := release
    ∃ w₁, evaluate (.quiet accepting) (Connection.onMessage 9 (fromHumanReadable (bytes "C|PI+x+")))
        (after 9 [] connecting).world = (.done (), w₁) ∧
      EndsAlike parserReports
        (evaluate (.quiet accepting)
          (Connection.onMessage 9 (fromHumanReadable (bytes "C|PI+x+E|EVT|a|Sb+")))
          (after 9 [] connecting).world)
        (evaluate (.quiet accepting)
          (Connection.onMessage 9 (fromHumanReadable (bytes "E|EVT|a|Sb+"))) w₁) := by
  intro _
  have hfirst := eq_done_of_isDone (r := evaluate (.quiet accepting)
    (Connection.onMessage 9 (fromHumanReadable (bytes "C|PI+x+"))) (after 9 [] connecting).world)
    (by decide +kernel)
  refine ⟨_, hfirst, ?_⟩
  exact (onMessage_append 9 (fromHumanReadable (bytes "C|PI+x+"))
    (fromHumanReadable (bytes "E|EVT|a|Sb+")) (by decide +kernel) (.quiet accepting) _ _
    hfirst).2 (overlooks_accepting _) passes_accepting

/-- What the error handler is told, if that is what is called -/
def Call.told : Call → Buffer
  | .errorHandler _ text => text
  | _ => []

/-- What the error handler is told of the first part is the text of the whole buffer. -/
theorem not_onMessage_append : let _ : Build := release
    ¬∀ cfg, Reaches pocoSocket 9 [] cfg → ∀ (conduct : Conduct interface) (x y : Buffer) (w₁ : World),
      Terminated x → conduct.IgnoresNotes →
      evaluate conduct (Connection.onMessage 9 x) cfg.world = (.done (), w₁) →
      let together := (evaluate conduct (Connection.onMessage 9 (x ++ y)) cfg.world).2
      let apart := (evaluate conduct (Connection.onMessage 9 y) w₁).2
      together.state = apart.state ∧ handed together = handed apart ∧
        invoked together = invoked apart := by
  intro _
  let cfg := after 9 [] connecting
  have hreach : Reaches pocoSocket 9 [] cfg := by
    apply Reentrant.reachable_run
    decide +kernel
  let x := fromHumanReadable (bytes "C|PI+")
  let y := fromHumanReadable (bytes "x+")
  have hfirst := eq_done_of_isDone (r := evaluate (.quiet accepting)
    (Connection.onMessage 9 x) cfg.world) (by decide +kernel)
  intro hclaim
  obtain ⟨-, -, hinvoked⟩ := hclaim _ hreach (.quiet accepting) x y _ (by decide +kernel)
    (overlooks_accepting _) hfirst
  exact absurd (congrArg (List.map Call.told) hinvoked) (by decide +kernel)

end Deepstream
