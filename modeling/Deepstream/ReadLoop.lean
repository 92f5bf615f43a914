import Deepstream.Client.Poco
import Deepstream.Reentrant.Evaluation

/-!
How `PocoWSHandler` reads frames and passes them on.

One call of `process_messages` collects the data of all frames that can be read and
hands it over when the loop is done, but it reports an end of the connection from
within the loop. A callback may leave the handler as it likes.
-/

namespace Deepstream.Poco

open Reentrant (Conduct Outcome Prog evaluate proceed)

section History
variable [PocoLibrary]

abbrev MethodItem := Reentrant.Item (interface.serving Handler Buffer Fault)
abbrev MethodWorld := Reentrant.World (interface.serving Handler Buffer Fault)

/-- How a callback ends, and the handler it leaves -/
abbrev Callbacks := MethodWorld → Entry → Except Exception Unit × Handler

def Callbacks.conduct (callbacks : Callbacks) : Conduct (interface.serving Handler Buffer Fault) :=
  fun w e => ({ w with state := (callbacks w e).2 }, (callbacks w e).1)

/-- What is read and called in a call of `process_messages`, oldest first -/
def history [Build] (callbacks : Callbacks) (network : Network) (h : Handler) : List MethodItem :=
  (evaluate callbacks.conduct (processMessages network) { state := h }).2.trace.reverse

/-- The data that was read -/
def dataRead (items : List MethodItem) : Buffer :=
  (items.map fun
    | .note payload => payload
    | _ => []).flatten

/-- The data that was passed on -/
def dataPassed (items : List MethodItem) : Buffer :=
  (items.map fun
    | .call (.onMessage buffer) => buffer
    | _ => []).flatten

def isEnd : MethodItem → Bool
  | .call .onClose | .call (.onError _) => true
  | _ => false

def isMessage : MethodItem → Bool
  | .call (.onMessage _) => true
  | _ => false

/-- All data that was read has been passed on, in its order, and before an end of the
connection was reported. -/
structure Delivered (items : List MethodItem) : Prop where
  data : dataPassed items = dataRead items
  order : ∀ before after, items = before ++ after → before.any isEnd = true →
    after.any isMessage = false

end History

/-- The frame carries data. -/
def Received.isData : Received → Bool
  | .frame payload flags => payload ≠ [] ∧ flags ≠ eofFlags
  | _ => false

def Received.payload : Received → Buffer
  | .frame payload _ => payload
  | _ => []

/-- What is reported for a frame or an exception -/
def Received.reported : Received → Option Entry
  | .frame _ _ => some .onClose
  | .webSocketException text | .netException text => some (.onError text)
  | .timeout | .exception _ => none

/-- There is nothing more to read, or a read times out, which is asserted to happen on secure
sockets only. -/
def Quiet [Build] (websocket : WebSocket) (last : Except Exception Unit) : List Received → Prop
  | [] => last.isOk = true
  | .timeout :: _ => Build.asserts = true → websocket.secure = true
  | _ => False

/-- If the first frame carries data, then nothing happens after the frames that do. -/
def Uninterrupted [Build] (websocket : WebSocket) (network : Network) : Prop :=
  ∀ first ∈ network.received.head?, first.isData = true →
    Quiet websocket network.last (network.received.dropWhile Received.isData)

section Frames
variable {received : Received} {rest : List Received}

/-- The data of the frames that are read before anything else -/
def collected (received : List Received) : Buffer :=
  ((received.takeWhile Received.isData).map Received.payload).flatten

theorem payload_ne_nil (hdata : received.isData = true) : received.payload ≠ [] := by
  cases received with
  | frame payload flags => exact (of_decide_eq_true hdata).1
  | _ => cases hdata

theorem collected_cons_data (hdata : received.isData = true) :
    collected (received :: rest) = received.payload ++ collected rest := by
  unfold collected
  rw [List.takeWhile_cons_of_pos hdata]
  rfl

theorem collected_ne_nil {all : List Received} (hfirst : received ∈ all.head?)
    (hdata : received.isData = true) : collected all ≠ [] := by
  cases all with
  | nil => cases hfirst
  | cons r rest =>
      cases hfirst
      rw [collected_cons_data hdata]
      exact List.append_ne_nil_of_left_ne_nil (payload_ne_nil hdata) _

theorem takeWhile_isData {all : List Received} (h : ∀ first ∈ all.head?, first.isData = false) :
    all.takeWhile Received.isData = [] ∧ all.dropWhile Received.isData = all := by
  cases all with
  | nil => exact ⟨rfl, rfl⟩
  | cons r rest =>
      have hnot : ¬r.isData = true := Bool.eq_false_iff.mp (h r rfl)
      exact ⟨List.takeWhile_cons_of_neg hnot, List.dropWhile_cons_of_neg hnot⟩

end Frames

section Runs
variable [PocoLibrary]

/-- A run that calls back, and goes on with `a` unless the callback raises an exception -/
def CalledBack {α : Type} (a : α) (e : Entry) (t : List MethodItem)
    (r : Outcome (interface.serving Handler Buffer Fault) α × MethodWorld) : Prop :=
  ∃ result, r.2.trace = .back e result :: .call e :: t ∧ (r.1 = .done a ∨ ∃ x, r.1 = .raised x)

variable (callbacks : Callbacks) {w : MethodWorld} {socket : WebSocket}

theorem calledBack_call (e : Entry) (w : MethodWorld) :
    CalledBack () e w.trace (evaluate callbacks.conduct (call e) w) := by
  cases hresult : (callbacks (w.calling e) e).1 with
  | ok a =>
      have hconduct : callbacks.conduct (w.calling e) e =
          ({ w.calling e with state := (callbacks (w.calling e) e).2 }, .ok a) := by
        rw [← hresult]
        rfl
      unfold call Prog.ask
      rw [Reentrant.evaluate_call_ok hconduct]
      exact ⟨_, rfl, .inl rfl⟩
  | error x =>
      have hconduct : callbacks.conduct (w.calling e) e =
          ({ w.calling e with state := (callbacks (w.calling e) e).2 }, .error x) := by
        rw [← hresult]
        rfl
      unfold call Prog.ask
      rw [Reentrant.evaluate_call_error hconduct]
      exact ⟨_, rfl, .inr ⟨x, rfl⟩⟩

theorem CalledBack.return {p : Method Unit} {e : Entry} {t : List MethodItem}
    (h : CalledBack () e t (evaluate callbacks.conduct p w)) (buffer : Buffer) :
    CalledBack buffer e t (evaluate callbacks.conduct (do p; return buffer) w) := by
  obtain ⟨result, htrace, houtcome⟩ := h
  rw [Reentrant.evaluate_bind]
  rcases hp : evaluate callbacks.conduct p w with ⟨outcome, w'⟩
  rw [hp] at htrace houtcome
  obtain rfl | ⟨x, rfl⟩ := houtcome
  · exact ⟨result, htrace, .inl rfl⟩
  · exact ⟨result, htrace, .inr ⟨x, rfl⟩⟩

theorem evaluate_websocket {α : Type} (next : WebSocket → Method α)
    (hsocket : w.state.websocket = some socket) :
    evaluate callbacks.conduct (websocket >>= next) w =
      evaluate callbacks.conduct (next socket) w := by
  have hread : evaluate callbacks.conduct websocket w = (.done socket, w) := by
    obtain ⟨⟨state, uri, websocket⟩, trace, stack⟩ := w
    cases hsocket
    rfl
  rw [Reentrant.evaluate_bind, hread]
  rfl

theorem evaluate_websocket_null {α : Type} (next : WebSocket → Method α)
    (hnull : w.state.websocket = none) :
    evaluate callbacks.conduct (websocket >>= next) w = (.aborted .nullPointer, w) := by
  have hread : evaluate callbacks.conduct websocket w = (.aborted .nullPointer, w) := by
    obtain ⟨⟨state, uri, websocket⟩, trace, stack⟩ := w
    cases hnull
    rfl
  rw [Reentrant.evaluate_bind, hread]
  rfl

section ReadFrame
variable [Build] {received : Received} (hsocket : w.state.websocket = some socket)
include hsocket

theorem readFrame_data (hdata : received.isData = true) :
    evaluate callbacks.conduct (readFrame received) w =
      (.done received.payload, w.noted received.payload) := by
  unfold readFrame
  rw [evaluate_websocket callbacks _ hsocket]
  cases received with
  | frame payload flags =>
      obtain ⟨hpayload, hflags⟩ := of_decide_eq_true hdata
      dsimp only
      rw [if_neg hpayload, if_neg hflags]
      rfl
  | _ => cases hdata

/-- A frame without data, or an exception that is caught, is reported. -/
theorem readFrame_reported {e : Entry} (hreported : received.reported = some e)
    (hdata : received.isData = false) :
    CalledBack [] e w.trace (evaluate callbacks.conduct (readFrame received) w) := by
  have hreport : ∀ (state : WSState) (e : Entry), CalledBack [] e w.trace
      (evaluate callbacks.conduct (do report state e; return ([] : Buffer)) w) :=
    fun state e => (calledBack_call callbacks e _).return callbacks []
  unfold readFrame
  rw [evaluate_websocket callbacks _ hsocket]
  cases received with
  | frame payload flags =>
      cases hreported
      dsimp only
      by_cases hpayload : payload = []
      · rw [if_pos hpayload]
        exact (calledBack_call callbacks .onClose _).return callbacks []
      · have hflags : flags = eofFlags := by
          by_contra hflags
          exact of_decide_eq_false hdata ⟨hpayload, hflags⟩
        rw [if_neg hpayload, if_pos hflags]
        exact hreport .closed .onClose
  | webSocketException text =>
      cases hreported
      exact hreport .error (.onError text)
  | netException text =>
      cases hreported
      exact hreport .error (.onError text)
  | timeout => cases hreported
  | exception => cases hreported

end ReadFrame

def reads (received : List Received) : List MethodItem :=
  (received.takeWhile Received.isData).map fun r => .note r.payload

/-- How the loop ends where the next frame does not carry data -/
inductive Finishes [Build] (socket : WebSocket) (last : Except Exception Unit) (buffer : Buffer) :
    List Received → Outcome (interface.serving Handler Buffer Fault) Buffer → List MethodItem →
    Prop where
  | ok (hlast : last = .ok ()) : Finishes socket last buffer [] (.done buffer) []
  | error (x : Exception) (hlast : last = .error x) : Finishes socket last buffer [] (.raised x) []
  | timeout (rest : List Received) (hsecure : Build.asserts = true → socket.secure = true) :
      Finishes socket last buffer (.timeout :: rest) (.done buffer) []
  | assertion (rest : List Received) (hsecure : ¬(Build.asserts = true → socket.secure = true))
      (f : Fault) : Finishes socket last buffer (.timeout :: rest) (.aborted f) []
  | exception (x : Exception) (rest : List Received) :
      Finishes socket last buffer (.exception x :: rest) (.raised x) []
  | reported (received : Received) (rest : List Received) (e : Entry)
      (hreported : received.reported = some e) (result : Except Exception Unit)
      (outcome : Outcome (interface.serving Handler Buffer Fault) Buffer)
      (houtcome : outcome = .done buffer ∨ ∃ x, outcome = .raised x) :
      Finishes socket last buffer (received :: rest) outcome [.call e, .back e result]

section Loop
variable [Build] {last : Except Exception Unit} {buffer : Buffer} {received : Received}
  {rest : List Received}

/-- The loop ends with a frame that does not carry data. -/
theorem readFrames_stop (hsocket : w.state.websocket = some socket)
    (hdata : received.isData = false) : ∃ outcome w' items,
      evaluate callbacks.conduct (readFrames last buffer (received :: rest)) w = (outcome, w') ∧
      w'.trace.reverse = w.trace.reverse ++ items ∧
      Finishes socket last buffer (received :: rest) outcome items := by
  have hnothing : w.trace.reverse = w.trace.reverse ++ [] := (List.append_nil _).symm
  unfold readFrames
  rw [Reentrant.evaluate_bind]
  cases hreported : received.reported with
  | none =>
      cases received with
      | timeout =>
          unfold readFrame
          rw [evaluate_websocket callbacks _ hsocket]
          dsimp only
          by_cases hsecure : Build.asserts = true ∧ socket.secure = false
          · rw [if_pos hsecure]
            refine ⟨_, _, _, rfl, hnothing, .assertion rest (fun h => ?_) _⟩
            exact absurd (h hsecure.1) (by rw [hsecure.2]; exact Bool.false_ne_true)
          · rw [if_neg hsecure]
            refine ⟨_, _, _, rfl, hnothing, .timeout rest fun hasserts => ?_⟩
            by_contra hnot
            exact hsecure ⟨hasserts, Bool.eq_false_iff.mpr hnot⟩
      | exception x =>
          unfold readFrame
          rw [evaluate_websocket callbacks _ hsocket]
          exact ⟨_, _, _, rfl, hnothing, .exception x rest⟩
      | _ => cases hreported
  | some e =>
      obtain ⟨result, htrace, houtcome⟩ :=
        readFrame_reported callbacks hsocket hreported hdata
      rcases hframe : evaluate callbacks.conduct (readFrame received) w with ⟨outcome, w'⟩
      rw [hframe] at htrace houtcome
      have hitems : w'.trace.reverse = w.trace.reverse ++ [.call e, .back e result] := by
        rw [htrace]
        simp
      obtain rfl | ⟨x, rfl⟩ := houtcome
      · exact ⟨_, _, _, rfl, hitems, .reported received rest e hreported result _ (.inl rfl)⟩
      · exact ⟨_, _, _, rfl, hitems, .reported received rest e hreported result _ (.inr ⟨x, rfl⟩)⟩

/-- Data is collected until something else is received. By induction on what is received: the
handler has not changed as long as there is data. -/
theorem readFrames_finishes (last : Except Exception Unit) (received : List Received)
    (buffer : Buffer) (w : MethodWorld) (hsocket : w.state.websocket = some socket) :
    ∃ outcome w' items,
      evaluate callbacks.conduct (readFrames last buffer received) w = (outcome, w') ∧
      w'.trace.reverse = w.trace.reverse ++ reads received ++ items ∧
      Finishes socket last (buffer ++ collected received) (received.dropWhile Received.isData)
        outcome items := by
  induction received generalizing buffer w with
  | nil =>
      have hnothing : w.trace.reverse = w.trace.reverse ++ reads [] ++ [] := by
        simp [reads]
      have hcollected : buffer ++ collected [] = buffer := List.append_nil _
      unfold readFrames
      rw [evaluate_websocket callbacks _ hsocket, hcollected]
      cases last with
      | ok => exact ⟨_, _, _, rfl, hnothing, .ok rfl⟩
      | error x => exact ⟨_, _, _, rfl, hnothing, .error x rfl⟩
  | cons received rest ih =>
      cases hdata : received.isData with
      | true =>
          unfold readFrames
          rw [Reentrant.evaluate_bind, readFrame_data callbacks hsocket hdata, proceed,
            if_neg (payload_ne_nil hdata), List.dropWhile_cons_of_pos hdata,
            collected_cons_data hdata, ← List.append_assoc]
          obtain ⟨outcome, w', items, heval, htrace, hfinishes⟩ :=
            ih (buffer ++ received.payload) (w.noted received.payload) hsocket
          refine ⟨outcome, w', items, heval, ?_, hfinishes⟩
          rw [htrace]
          unfold reads Reentrant.World.noted
          rw [List.takeWhile_cons_of_pos hdata]
          simp
      | false =>
          have hnot : ¬received.isData = true := Bool.eq_false_iff.mp hdata
          have hcollected : buffer ++ collected (received :: rest) = buffer := by
            unfold collected
            rw [List.takeWhile_cons_of_neg hnot]
            exact List.append_nil _
          have hreads : reads (received :: rest) = [] := by
            unfold reads
            rw [List.takeWhile_cons_of_neg hnot]
            rfl
          rw [List.dropWhile_cons_of_neg hnot, hcollected, hreads, List.append_nil]
          exact readFrames_stop callbacks hsocket hdata

/-- What is passed on after the loop -/
inductive Passes : Outcome (interface.serving Handler Buffer Fault) Buffer → List MethodItem →
    Prop where
  | nothing : Passes (.done []) []
  | message (buffer : Buffer) (hne : buffer ≠ []) (result : Except Exception Unit) :
      Passes (.done buffer) [.call (.onMessage buffer), .back (.onMessage buffer) result]
  | raised (x : Exception) : Passes (.raised x) []
  | aborted (f : Fault) : Passes (.aborted f) []

theorem exists_passes {network : Network} {h : Handler} (hopen : h.state = .open)
    (hsocket : h.websocket = some socket) : ∃ outcome items passed,
      history callbacks network h = reads network.received ++ items ++ passed ∧
      Finishes socket network.last (collected network.received)
        (network.received.dropWhile Received.isData) outcome items ∧ Passes outcome passed := by
  obtain ⟨outcome, w', items, heval, htrace, hfinishes⟩ :=
    readFrames_finishes callbacks network.last network.received [] { state := h } hsocket
  have hhistory : history callbacks network h =
      (proceed callbacks.conduct
        (fun buffer => Prog.when (buffer ≠ []) (call (.onMessage buffer)))
        (outcome, w')).2.trace.reverse := by
    rw [← heval, ← Reentrant.evaluate_bind]
    unfold history processMessages
    change (evaluate callbacks.conduct (Prog.when (h.state = .open) _) _).2.trace.reverse = _
    rw [Prog.when, if_pos hopen]
  change w'.trace.reverse = reads network.received ++ items at htrace
  rw [hhistory]
  cases outcome with
  | raised x => exact ⟨_, _, _, by rw [List.append_nil]; exact htrace, hfinishes, .raised x⟩
  | aborted f => exact ⟨_, _, _, by rw [List.append_nil]; exact htrace, hfinishes, .aborted f⟩
  | done buffer =>
      by_cases hne : buffer = []
      · subst hne
        exact ⟨_, _, _, by rw [List.append_nil]; exact htrace, hfinishes, .nothing⟩
      · obtain ⟨result, hcall, -⟩ := calledBack_call callbacks (.onMessage buffer) w'
        refine ⟨_, _, _, ?_, hfinishes, .message buffer hne result⟩
        rw [proceed, Prog.when, if_pos hne, hcall, ← htrace]
        simp

end Loop

section Histories
variable {received : List Received} {items : List MethodItem}

theorem dataRead_reads : dataRead (reads received) = collected received := by
  unfold dataRead reads collected
  rw [List.map_map]
  rfl

theorem any_isEnd_reads : (reads received).any isEnd = false := by
  unfold reads
  rw [List.any_map]
  exact List.any_eq_false.mpr fun _ _ => Bool.false_ne_true

theorem any_isMessage_reads : (reads received).any isMessage = false := by
  unfold reads
  rw [List.any_map]
  exact List.any_eq_false.mpr fun _ _ => Bool.false_ne_true

@[simp] theorem dataRead_append (a b : List MethodItem) :
    dataRead (a ++ b) = dataRead a ++ dataRead b := by
  simp [dataRead]

@[simp] theorem dataPassed_append (a b : List MethodItem) :
    dataPassed (a ++ b) = dataPassed a ++ dataPassed b := by
  simp [dataPassed]

theorem dataPassed_eq_nil (h : items.any isMessage = false) : dataPassed items = [] := by
  unfold dataPassed
  rw [List.flatten_eq_nil_iff]
  intro buffer hbuffer
  obtain ⟨item, hitem, rfl⟩ := List.mem_map.mp hbuffer
  have hnot := List.any_eq_false.mp h item hitem
  cases item with
  | call e =>
      cases e with
      | onMessage => exact absurd rfl hnot
      | _ => rfl
  | _ => rfl

/-- Nothing was read or passed on. -/
theorem delivered_of_nothing (hread : dataRead items = []) (hpassed : items.any isMessage = false) :
    Delivered items where
  data := by rw [hread, dataPassed_eq_nil hpassed]
  order before after heq _ := by
    rw [heq, List.any_append, Bool.or_eq_false_iff] at hpassed
    exact hpassed.2

/-- What was read is passed on, and the connection did not end. -/
theorem delivered_of_passed (hend : items.any isEnd = false)
    (hpassed : items.any isMessage = false) (buffer : Buffer) (hread : dataRead items = buffer)
    (result : Except Exception Unit) :
    Delivered (items ++ [.call (.onMessage buffer), .back (.onMessage buffer) result]) where
  data := by
    rw [dataRead_append, dataPassed_append, dataPassed_eq_nil hpassed, hread]
    simp [dataPassed, dataRead]
  order before after heq hbefore := by
    have hnone : List.any (items ++ [.call (.onMessage buffer), .back (.onMessage buffer) result])
        isEnd = false := by
      rw [List.any_append, hend]
      rfl
    rw [heq, List.any_append, hbefore] at hnone
    cases hnone

/-- What was read is lost. -/
theorem not_delivered_of_lost (hread : dataRead items ≠ [])
    (hpassed : items.any isMessage = false) : ¬Delivered items :=
  fun h => hread (by rw [← h.data, dataPassed_eq_nil hpassed])

/-- The end of the connection was reported first. -/
theorem not_delivered_of_late (hend : items.any isEnd = true) (buffer : Buffer)
    (result : Except Exception Unit) :
    ¬Delivered (items ++ [.call (.onMessage buffer), .back (.onMessage buffer) result]) := by
  intro h
  have hlate := h.order items _ rfl hend
  cases hlate

end Histories

section Delivery
variable [Build] {last : Except Exception Unit} {received : List Received}
  {outcome : Outcome (interface.serving Handler Buffer Fault) Buffer}
  {items passed : List MethodItem}

omit [Build] in
theorem isEnd_reported {r : Received} {e : Entry} (h : r.reported = some e) :
    isEnd (.call e) = true := by
  cases r with
  | timeout | exception => cases h
  | _ =>
      cases h
      rfl

/-- When the loop ends nothing is read and no data is passed on. -/
theorem Finishes.nothing {buffer : Buffer}
    (h : Finishes socket last buffer received outcome items) :
    dataRead items = [] ∧ items.any isMessage = false := by
  cases h with
  | reported r rest e hreported result outcome houtcome =>
      cases r with
      | timeout | exception => cases hreported
      | _ =>
          cases hreported
          exact ⟨rfl, rfl⟩
  | _ => exact ⟨rfl, rfl⟩

omit [Build] in
theorem Passes.eq_nil (h : Passes outcome passed)
    (houtcome : ∀ buffer, outcome = .done buffer → buffer = []) : passed = [] := by
  cases h with
  | message buffer hne result => exact absurd (houtcome buffer rfl) hne
  | _ => rfl

omit [Build] in
theorem Passes.exists_message {buffer : Buffer} (h : Passes (.done buffer) passed)
    (hne : buffer ≠ []) : ∃ result,
      passed = [.call (.onMessage buffer), .back (.onMessage buffer) result] := by
  cases h with
  | nothing => exact absurd rfl hne
  | message _ _ result => exact ⟨result, rfl⟩

/-- No data comes first. -/
theorem delivered_of_no_data (hfinishes : Finishes socket last [] received outcome items)
    (hpasses : Passes outcome passed) : Delivered (items ++ passed) := by
  have houtcome : ∀ buffer, outcome = .done buffer → buffer = [] := by
    rintro buffer rfl
    cases hfinishes with
    | ok | timeout => rfl
    | reported r rest e hreported result outcome houtcome =>
        obtain heq | ⟨x, heq⟩ := houtcome
        · cases heq
          rfl
        · cases heq
  rw [hpasses.eq_nil houtcome, List.append_nil]
  exact delivered_of_nothing hfinishes.nothing.1 hfinishes.nothing.2

/-- Data comes first. -/
theorem delivered_iff_of_data (hne : collected received ≠ [])
    (hfinishes : Finishes socket last (collected received)
      (received.dropWhile Received.isData) outcome items) (hpasses : Passes outcome passed) :
    Delivered (reads received ++ items ++ passed) ↔
      Quiet socket last (received.dropWhile Received.isData) := by
  have hpassed : ∀ result, Delivered (reads received ++ [.call (.onMessage (collected received)),
      .back (.onMessage (collected received)) result]) :=
    delivered_of_passed any_isEnd_reads any_isMessage_reads _ dataRead_reads
  have hlost : (∀ buffer, outcome ≠ .done buffer) →
      ¬Delivered (reads received ++ items ++ passed) := by
    intro houtcome
    rw [hpasses.eq_nil fun buffer heq => absurd heq (houtcome buffer), List.append_nil]
    apply not_delivered_of_lost
    · rw [dataRead_append, dataRead_reads, hfinishes.nothing.1, List.append_nil]
      exact hne
    · rw [List.any_append, any_isMessage_reads, hfinishes.nothing.2]
      rfl
  generalize received.dropWhile Received.isData = rest at hfinishes
  cases hfinishes with
  | ok hlast =>
      obtain ⟨result, rfl⟩ := hpasses.exists_message hne
      rw [hlast, List.append_nil]
      exact iff_of_true (hpassed result) rfl
  | error x hlast =>
      rw [hlast]
      exact iff_of_false (hlost nofun) Bool.false_ne_true
  | timeout rest hsecure =>
      obtain ⟨result, rfl⟩ := hpasses.exists_message hne
      rw [List.append_nil]
      exact iff_of_true (hpassed result) hsecure
  | assertion rest hsecure f => exact iff_of_false (hlost nofun) hsecure
  | exception x rest => exact iff_of_false (hlost nofun) id
  | reported r rest e hreported result outcome houtcome =>
      have hnot : ¬Quiet socket last (r :: rest) := by
        cases r with
        | timeout => cases hreported
        | _ => exact id
      refine iff_of_false ?_ hnot
      obtain rfl | ⟨x, rfl⟩ := houtcome
      · obtain ⟨_, rfl⟩ := hpasses.exists_message hne
        apply not_delivered_of_late
        rw [List.any_append, List.any_cons, isEnd_reported hreported]
        simp
      · exact hlost nofun

theorem history_closed {network : Network} {h : Handler} (hclosed : h.state ≠ .open) :
    history callbacks network h = [] := by
  unfold history processMessages
  change (evaluate callbacks.conduct (Prog.when (h.state = .open) _) _).2.trace.reverse = []
  rw [Prog.when, if_neg hclosed]
  rfl

/-- Polling the socket fails while `websocket_` is null. -/
theorem history_null {network : Network} {h : Handler} (hnull : h.websocket = none) :
    history callbacks network h = [] := by
  by_cases hopen : h.state = .open
  · have hloop : evaluate callbacks.conduct (readFrames network.last [] network.received)
        { state := h } = (.aborted .nullPointer, { state := h }) := by
      cases network.received with
      | nil =>
          unfold readFrames
          exact evaluate_websocket_null callbacks _ hnull
      | cons r rest =>
          unfold readFrames readFrame
          rw [Reentrant.evaluate_bind, evaluate_websocket_null callbacks _ hnull]
          rfl
    unfold history processMessages
    change (evaluate callbacks.conduct (Prog.when (h.state = .open) _) _).2.trace.reverse = []
    rw [Prog.when, if_pos hopen, Reentrant.evaluate_bind, hloop]
    rfl
  · exact history_closed callbacks hopen

/-- In every call the data is passed on as it should be if and only if it is not followed by an
end of the connection, an exception or a failing assertion. -/
theorem delivered_iff (callbacks : Callbacks) (network : Network) (h : Handler) :
    Delivered (history callbacks network h) ↔
      (h.state = .open → ∀ websocket ∈ h.websocket, Uninterrupted websocket network) := by
  by_cases hopen : h.state = .open
  · cases hsocket : h.websocket with
    | none =>
        rw [history_null callbacks hsocket]
        exact iff_of_true (delivered_of_nothing rfl rfl) fun _ _ hmem => absurd hmem nofun
    | some socket =>
        obtain ⟨outcome, items, passed, hhistory, hfinishes, hpasses⟩ :=
          exists_passes callbacks hopen hsocket
        rw [hhistory]
        by_cases hdata : ∃ first ∈ network.received.head?, first.isData = true
        · obtain ⟨first, hfirst, hdata⟩ := hdata
          rw [delivered_iff_of_data (collected_ne_nil hfirst hdata) hfinishes hpasses]
          refine ⟨fun hquiet _ websocket hmem _ _ _ => ?_, fun hall => ?_⟩
          · cases hmem
            exact hquiet
          · exact hall hopen socket rfl first hfirst hdata
        · have hnone : ∀ first ∈ network.received.head?, first.isData = false :=
            fun first hfirst => Bool.eq_false_iff.mpr fun htrue => hdata ⟨first, hfirst, htrue⟩
          obtain ⟨htake, hdrop⟩ := takeWhile_isData hnone
          unfold reads collected at *
          rw [htake] at hfinishes ⊢
          rw [hdrop] at hfinishes
          apply iff_of_true (delivered_of_no_data hfinishes hpasses)
          exact fun _ _ _ first hfirst htrue => absurd ⟨first, hfirst, htrue⟩ hdata
  · rw [history_closed callbacks hopen]
    exact iff_of_true (delivered_of_nothing rfl rfl) fun hstate => absurd hstate hopen

end Delivery
end Runs

/-- Data and a frame that closes the connection are available together. -/
theorem dataThenClose_not_delivered : let _ : Build := release; let _ : PocoLibrary := plainLibrary
    ¬∀ (callbacks : Callbacks) (network : Network) (h : Handler),
      h.state = .open → h.websocket ≠ none → Delivered (history callbacks network h) := by
  intro _ _ hclaim
  have h := hclaim (fun w _ => (.ok (), w.state))
    { received := [.frame (fromHumanReadable (bytes "C|PI+")) 0x81, .frame [3, 232] eofFlags] }
    { state := .open, uri := bytes "ws://a", websocket := some { secure := false } } rfl nofun
  have hlate := h.order _ _ (List.take_append_drop 2 _).symm (by decide +kernel)
  exact absurd hlate (by decide +kernel)

end Deepstream.Poco
