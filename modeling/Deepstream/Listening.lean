import Deepstream.Alternation

/-!
What an `Event` object tells the server about its listeners.

Patterns are announced when they are registered and removed while the
connection is open, and all of them when it opens. The loop over the map visits
its entries in order, since nothing changes the map meanwhile.
-/

namespace Deepstream

/-- The messages about a name that were accepted since the connection became `OPEN`, newest
first -/
def acceptedSince (first second : Action) (name : Buffer) : List Item → List Action
  | [] => []
  | .note (.became c) :: t =>
      if c.state = .open then [] else acceptedSince first second name t
  | .back (.wsSend m _) (.ok true) :: t =>
      if m.header.topic = .event ∧ (m.header.action = first ∨ m.header.action = second) ∧
        m.arguments = [name]
      then m.header.action :: acceptedSince first second name t
      else acceptedSince first second name t
  | _ :: t => acceptedSince first second name t

namespace NameMap

theorem after_eq {α : Type} {map : NameMap α} {done rest : List (Buffer × α)} {entry : Buffer × α}
    (h : map.toList = done ++ entry :: rest) : map.after entry.1 = rest.head? := by
  have hordered := Std.TreeMap.ordered_keys_toList (t := map)
  rw [h, List.pairwise_append, List.pairwise_cons] at hordered
  obtain ⟨-, ⟨hrest, -⟩, hdone⟩ := hordered
  have hnone : done.find? (fun e => compareBytes entry.1 e.1 = .lt) = none := by
    rw [List.find?_eq_none]
    intro e he hlt
    have hgt := hdone e he entry (List.mem_cons_self ..)
    have hlt := of_decide_eq_true hlt
    rw [Std.OrientedCmp.gt_of_lt hgt] at hlt
    cases hlt
  unfold after
  rw [h, List.find?_append, hnone, Option.none_or, List.find?_cons_of_neg (by
    simp [Std.ReflCmp.compare_self])]
  cases rest with
  | nil => rfl
  | cons e rest => exact List.find?_cons_of_pos (decide_eq_true (hrest e (List.mem_cons_self ..)))

end NameMap

namespace Event

open Reentrant (Prog answering evaluate performAll undisturbed wp)

/-- Messages are accepted while the connection is open. -/
def sendWhileOpen (m : MessageBuilder) : Program Bool := do
  let c ← Prog.read
  if c.state = .open then mockSend m else return false

/-- The state of the connection changes, and the object is told. -/
def become (n : Nat) (state : ConnectionState) : Program Unit := do
  let c ← Prog.read
  Prog.when (state ≠ c.state) do
    Prog.modify fun c : Client => { c with state }
    Program.leave (.became { c with state })
    onConnectionStateChange sendWhileOpen n state

inductive Listening where
  | listen (pattern : Buffer) (callback : Function)
  | unlisten (pattern : Buffer)
  | become (state : ConnectionState)

def Listening.program (n : Nat) : Listening → Program Unit
  | .listen pattern callback => Event.listen sendWhileOpen pattern callback
  | .unlisten pattern => Event.unlisten sendWhileOpen pattern
  | .become state => Event.become n state

def Listening.Clean : Listening → Prop
  | .listen pattern _ | .unlisten pattern => pattern ≠ [] ∧ asciiUnitSeparator ∉ pattern
  | .become _ => True

/-- The server knows exactly the patterns that are listened to, and was told of each in turns. -/
structure Mirrored (w : World) : Prop where
  known : ∀ pattern, (acceptedSince .listen .unlisten pattern w.trace).head? = some .listen ↔
    pattern ∈ w.state.event.listenerMap
  alternates : ∀ pattern,
    Alternates .listen .unlisten (acceptedSince .listen .unlisten pattern w.trace)

/-- The registrations after some operations -/
structure Registered (count : Nat) (w : World) : Prop where
  clean : ∀ pattern ∈ w.state.event.listenerMap, pattern ≠ [] ∧ asciiUnitSeparator ∉ pattern
  size : w.state.event.listenerMap.size ≤ count
  unsubscribed : w.state.event.subscriberMap = ∅
  queue : w.state.event.sendQueue = []

theorem Registered.more {count : Nat} {w : World} (h : Registered count w) :
    Registered (count + 1) w :=
  ⟨h.clean, Nat.le_succ_of_le h.size, h.unsubscribed, h.queue⟩

structure Listens (count : Nat) (w : World) : Prop extends Registered count w where
  mirrored : w.state.state = .open → Mirrored w

/-- The message becomes the latest one about its name. -/
theorem acceptedSince_answered {w : World} {first second action : Action} {about : Buffer}
    (haction : action = first ∨ action = second) (message : Built .event action [about])
    (name : Buffer) :
    acceptedSince first second name (World.answered w (.wsSend message.val []) true).trace =
      if name = about then action :: acceptedSince first second name w.trace
      else acceptedSince first second name w.trace := by
  obtain ⟨m, hheader, harguments⟩ := message
  change (if m.header.topic = .event ∧ (m.header.action = first ∨ m.header.action = second) ∧
    m.arguments = [name] then m.header.action :: acceptedSince first second name w.trace
    else acceptedSince first second name w.trace) = _
  rw [hheader, harguments]
  by_cases hname : name = about
  · rw [if_pos hname, if_pos ⟨rfl, haction, by rw [hname]⟩]
  · rw [if_neg hname, if_neg fun h => hname (List.singleton_inj.mp h.2.2).symm]

section Sending
variable {answer : Replies} {w : World} {fault : Failure → Prop} {E : Exception → World → Prop}
  (hsends : ∀ w m buffer, answer w (.wsSend m buffer) = .ok true)
include hsends

theorem wp_sendWhileOpen {m : MessageBuilder} {Q : Bool → World → Prop}
    (hopen : w.state.state = .open → Q true (World.answered w (.wsSend m []) true))
    (hclosed : w.state.state ≠ .open → Q false w) :
    wp (undisturbed fault) (answering answer) (sendWhileOpen m) Q E w := by
  unfold sendWhileOpen
  rw [Reentrant.wp_bind, Reentrant.wp_read]
  split
  · next hstate =>
      rw [wp_mockSend (hsends _ _ _)]
      exact hopen hstate
  · next hstate => exact hclosed hstate

/-- The loop over the rest of a map announces every name in it. -/
theorem wp_announce {α : Type} {map : Event → NameMap (Node α)} (first second : Action)
    {n : Nat} {done rest : List (Buffer × Node α)}
    (hlist : (map w.state.event).toList = done ++ rest)
    (hlength : rest.length ≤ n) (hclean : ∀ entry ∈ rest, asciiUnitSeparator ∉ entry.1)
    (hopen : w.state.state = .open) {Q : Unit → World → Prop}
    (hQ : ∀ w' : World, w'.state = w.state →
      (∀ name, acceptedSince first second name w'.trace =
        if name ∈ rest.map Prod.fst then first :: acceptedSince first second name w.trace
        else acceptedSince first second name w.trace) → Q () w') :
    wp (undisturbed fault) (answering answer) (announce sendWhileOpen map first n rest.head?)
      Q E w := by
  induction rest generalizing done n w with
  | nil =>
      cases n <;> exact hQ w rfl fun name => (if_neg List.not_mem_nil).symm
  | cons entry rest ih =>
      obtain ⟨n, rfl⟩ := Nat.exists_eq_succ_of_ne_zero (Nat.ne_of_gt (Nat.lt_of_lt_of_le
        (Nat.succ_pos _) hlength))
      obtain ⟨name, node⟩ := entry
      have hbound : (map w.state.event)[name]? = some node := by
        rw [← Std.TreeMap.mem_toList_iff_getElem?_eq_some, hlist]
        exact List.mem_append_right _ (List.mem_cons_self ..)
      have hnodup := Std.TreeMap.ordered_keys_toList (t := map w.state.event)
      rw [hlist, List.pairwise_append, List.pairwise_cons] at hnodup
      have hfresh : name ∉ rest.map Prod.fst := by
        intro hmem
        obtain ⟨entry, hentry, hname⟩ := List.mem_map.mp hmem
        have hlt := hnodup.2.1.1 entry hentry
        rw [hname] at hlt
        have hself : compareBytes name name = .eq := Std.ReflCmp.compare_self
        rw [hself] at hlt
        cases hlt
      unfold announce
      rw [List.head?_cons]
      rw [Reentrant.wp_bind]
      refine wp_build_clean (show asciiUnitSeparator ∉ name from
        hclean _ (List.mem_cons_self ..)) fun message => ?_
      rw [Reentrant.wp_bind]
      refine wp_sendWhileOpen hsends (fun _ => ?_) fun hne => (hne hopen).elim
      rw [wp_when]
      refine ⟨fun _ => ?_, fun hne => (hne rfl).elim⟩
      rw [Reentrant.wp_bind, Reentrant.wp_read, World.state_answered]
      rw [hbound, Option.map_some, if_pos rfl, NameMap.after_eq hlist]
      have hrest : (map (World.answered w (.wsSend message.val []) true).state.event).toList =
          (done ++ [(name, node)]) ++ rest := by
        rw [World.state_answered, hlist, List.append_assoc]
        rfl
      apply ih hrest
      · exact Nat.le_of_succ_le_succ hlength
      · exact fun e he => hclean e (List.mem_cons_of_mem _ he)
      · exact hopen
      · intro w' hstate haccepted
        apply hQ w' hstate
        intro about
        rw [haccepted about, acceptedSince_answered (.inl rfl) message about, List.map_cons]
        by_cases hname : about = name
        · rw [if_neg (hname ▸ hfresh), if_pos hname, hname, if_pos (List.mem_cons_self ..)]
        · rw [if_neg hname]
          simp only [List.mem_cons, hname, false_or]

theorem wp_listen {pattern : Buffer} (callback : Function) {count : Nat} (h : Listens count w)
    (hne : pattern ≠ []) (hclean : asciiUnitSeparator ∉ pattern) :
    wp (undisturbed fault) (answering answer) (Event.listen sendWhileOpen pattern callback)
      (fun _ => Listens (count + 1)) (fun _ => Listens (count + 1)) w := by
  unfold Event.listen
  rw [if_neg hne, Reentrant.wp_bind, Reentrant.wp_read, wp_when]
  refine ⟨fun hfresh => ?_, fun _ => ?_⟩
  · rw [Reentrant.wp_bind, wp_modifyEvent, Reentrant.wp_bind]
    apply wp_build_clean hclean
    intro message
    rw [wp_ignore]
    have hinsert : ∀ name, name ∈ w.state.event.listenerMap.insert pattern
        ⟨w.state.event.places, callback⟩ ↔ name = pattern ∨ name ∈ w.state.event.listenerMap := by
      intro name
      rw [Std.TreeMap.mem_insert, Std.LawfulEqCmp.compare_eq_iff_eq, eq_comm]
    have hsize := Std.TreeMap.size_insert_le (t := w.state.event.listenerMap) (k := pattern)
      (v := ⟨w.state.event.places, callback⟩)
    have hkeys : ∀ name ∈ w.state.event.listenerMap.insert pattern
        ⟨w.state.event.places, callback⟩, name ≠ [] ∧ asciiUnitSeparator ∉ name := by
      intro name hmem
      cases (hinsert name).mp hmem with
      | inl heq => exact heq ▸ ⟨hne, hclean⟩
      | inr hmem => exact h.clean name hmem
    apply wp_sendWhileOpen hsends
    · intro hopen
      obtain ⟨hknown, halternates⟩ := h.mirrored hopen
      refine ⟨⟨hkeys, hsize.trans (Nat.succ_le_succ h.size), h.unsubscribed, h.queue⟩,
        fun _ => ⟨fun name => ?_, fun name => ?_⟩⟩
      · rw [acceptedSince_answered (.inl rfl) message]
        refine Iff.trans ?_ (hinsert name).symm
        by_cases hname : name = pattern
        · exact iff_of_true (by rw [if_pos hname]; rfl) (.inl hname)
        · rw [if_neg hname, hknown name, or_iff_right hname]
      · rw [acceptedSince_answered (.inl rfl) message]
        by_cases hname : name = pattern
        · subst hname
          rw [if_pos rfl]
          refine ⟨(if_neg fun hlast => ?_).symm, halternates name⟩
          exact hfresh ((hknown name).mp hlast)
        · rw [if_neg hname]
          exact halternates name
    · exact fun hclosed => ⟨⟨hkeys, hsize.trans (Nat.succ_le_succ h.size), h.unsubscribed,
        h.queue⟩, fun hopen => absurd hopen hclosed⟩
  · exact ⟨h.more, h.mirrored⟩

theorem wp_unlisten {pattern : Buffer} {count : Nat} (h : Listens count w)
    (hclean : asciiUnitSeparator ∉ pattern) :
    wp (undisturbed fault) (answering answer) (Event.unlisten sendWhileOpen pattern)
      (fun _ => Listens (count + 1)) (fun _ => Listens (count + 1)) w := by
  unfold Event.unlisten
  rw [Reentrant.wp_bind, Reentrant.wp_read, wp_when]
  refine ⟨fun hmem => ?_, fun _ => ?_⟩
  · rw [Reentrant.wp_bind, wp_modifyEvent, Reentrant.wp_bind]
    apply wp_build_clean hclean
    intro message
    rw [wp_ignore]
    have herase : ∀ name, name ∈ w.state.event.listenerMap.erase pattern ↔
        name ≠ pattern ∧ name ∈ w.state.event.listenerMap := by
      intro name
      rw [Std.TreeMap.mem_erase, ne_eq, Std.LawfulEqCmp.compare_eq_iff_eq, eq_comm]
    have hsize := (Std.TreeMap.size_erase_le (t := w.state.event.listenerMap)
      (k := pattern)).trans h.size
    have hkeys : ∀ name ∈ w.state.event.listenerMap.erase pattern,
        name ≠ [] ∧ asciiUnitSeparator ∉ name :=
      fun name hname => h.clean name ((herase name).mp hname).2
    apply wp_sendWhileOpen hsends
    · intro hopen
      obtain ⟨hknown, halternates⟩ := h.mirrored hopen
      refine ⟨⟨hkeys, Nat.le_succ_of_le hsize, h.unsubscribed, h.queue⟩,
        fun _ => ⟨fun name => ?_, fun name => ?_⟩⟩
      · rw [acceptedSince_answered (.inr rfl) message]
        refine Iff.trans ?_ (herase name).symm
        by_cases hname : name = pattern
        · exact iff_of_false (by rw [if_pos hname]; rintro ⟨⟩) fun hne => hne.1 hname
        · rw [if_neg hname, hknown name, and_iff_right hname]
      · rw [acceptedSince_answered (.inr rfl) message]
        by_cases hname : name = pattern
        · subst hname
          rw [if_pos rfl]
          exact ⟨(if_pos ((hknown name).mpr hmem)).symm, halternates name⟩
        · rw [if_neg hname]
          exact halternates name
    · exact fun hclosed => ⟨⟨hkeys, Nat.le_succ_of_le hsize, h.unsubscribed, h.queue⟩,
        fun hopen => absurd hopen hclosed⟩
  · exact ⟨h.more, h.mirrored⟩

/-- When the connection opens, every pattern is announced. -/
theorem wp_onOpen_listens {n count : Nat} (h : Registered count w) (hcount : count < n)
    (hopen : w.state.state = .open)
    (hfresh : ∀ name, acceptedSince .listen .unlisten name w.trace = []) :
    wp (undisturbed fault) (answering answer) (onConnectionStateChange sendWhileOpen n .open)
      (fun _ => Listens count) (fun _ => Listens count) w := by
  obtain ⟨n, rfl⟩ := Nat.exists_eq_succ_of_ne_zero (Nat.ne_of_gt (Nat.zero_lt_of_lt hcount))
  have hlength : w.state.event.listenerMap.toList.length ≤ n + 1 := by
    rw [Std.TreeMap.length_toList]
    exact h.size.trans (Nat.le_of_lt hcount)
  unfold onConnectionStateChange
  rw [wp_when]
  refine ⟨fun _ => ?_, fun hne => (hne rfl).elim⟩
  rw [Reentrant.wp_bind]
  unfold resubscribe
  rw [Reentrant.wp_bind, Reentrant.wp_read, h.unsubscribed]
  change wp _ _ (pure ()) _ _ w
  rw [Reentrant.wp_pure, Reentrant.wp_bind]
  unfold relisten
  rw [Reentrant.wp_bind, Reentrant.wp_read]
  have hkey : ∀ name, name ∈ w.state.event.listenerMap.toList.map Prod.fst ↔
      name ∈ w.state.event.listenerMap := by
    intro name
    rw [Std.TreeMap.map_fst_toList_eq_keys, Std.TreeMap.mem_keys]
  have hlist : (listenerMap w.state.event).toList = [] ++ w.state.event.listenerMap.toList := rfl
  apply wp_announce hsends .listen .unlisten hlist hlength
  · intro entry hentry
    exact (h.clean entry.1 (NameMap.mem_of_mem_toList hentry)).2
  · exact hopen
  · intro w' hstate haccepted
    have hlistens : Listens count w' := by
      have hregistered : Registered count w' := by
        constructor <;> rw [hstate]
        exacts [h.clean, h.size, h.unsubscribed, h.queue]
      refine ⟨hregistered, fun _ => ⟨fun name => ?_, fun name => ?_⟩⟩
      · rw [haccepted name, hfresh name, hstate]
        by_cases hmem : name ∈ w.state.event.listenerMap.toList.map Prod.fst
        · exact iff_of_true (by rw [if_pos hmem]; rfl) ((hkey name).mp hmem)
        · exact iff_of_false (by rw [if_neg hmem]; rintro ⟨⟩) fun h => hmem ((hkey name).mpr h)
      · rw [haccepted name, hfresh name]
        split
        · exact ⟨rfl, trivial⟩
        · trivial
    unfold flush
    rw [Reentrant.wp_bind, Reentrant.wp_read, hlistens.queue]
    exact hlistens

theorem wp_become {n count : Nat} (state : ConnectionState) (h : Listens count w)
    (hcount : count < n) :
    wp (undisturbed fault) (answering answer) (Event.become n state)
      (fun _ => Listens count) (fun _ => Listens count) w := by
  unfold Event.become
  rw [Reentrant.wp_bind, Reentrant.wp_read, wp_when]
  refine ⟨fun _ => ?_, fun _ => h⟩
  rw [Reentrant.wp_bind, Reentrant.wp_modify, Reentrant.wp_bind, wp_leave]
  by_cases hstate : state = .open
  · subst hstate
    refine wp_onOpen_listens hsends ?_ hcount ?_ ?_
    · exact ⟨h.clean, h.size, h.unsubscribed, h.queue⟩
    · rfl
    · exact fun _ => if_pos rfl
  · unfold onConnectionStateChange
    rw [wp_when]
    refine ⟨fun hopen => absurd hopen hstate, fun _ => ?_⟩
    exact ⟨⟨h.clean, h.size, h.unsubscribed, h.queue⟩, fun hopen => absurd hopen hstate⟩

theorem wp_listening {n count : Nat} (op : Listening) (hclean : op.Clean) (hcount : count < n)
    (h : Listens count w) :
    wp (undisturbed fault) (answering answer) (op.program n)
      (fun _ => Listens (count + 1)) (fun _ => Listens (count + 1)) w := by
  cases op with
  | listen pattern callback => exact wp_listen hsends callback h hclean.1 hclean.2
  | unlisten pattern => exact wp_unlisten hsends h hclean.2
  | become state =>
      have hmore : ∀ w', Listens count w' → Listens (count + 1) w' :=
        fun w' hw' => ⟨hw'.more, hw'.mirrored⟩
      exact Reentrant.wp_mono (wp_become hsends state h hcount) (fun _ => hmore) fun _ => hmore

end Sending

/-- The object never fails. Whenever the connection is open the server knows exactly the
patterns that are listened to, and to listen for one of them once more does nothing. -/
theorem listeners_mirrored (answer : Replies)
    (hsends : ∀ w m buffer, answer w (.wsSend m buffer) = .ok true) (ops : List Listening)
    (hclean : ∀ op ∈ ops, op.Clean) (n : Nat) (hn : ops.length ≤ n) :
    ∃ w, performAll (.quiet answer) (Listening.program n) ops { state := {} } = .ok w ∧
      (w.state.state = .open → Mirrored w) ∧
      ∀ pattern callback, pattern ∈ w.state.event.listenerMap →
        evaluate (.quiet answer) (Event.listen sendWhileOpen pattern callback) w =
          (.done (), w) := by
  have hstart : Listens 0 { state := {} } :=
    ⟨⟨fun _ hmem => absurd hmem Std.TreeMap.not_mem_emptyc, Nat.le_refl 0, rfl, rfl⟩,
      fun hopen => by cases hopen⟩
  have hobeys := Reentrant.quiet_obeys answer fun _ => False
  have hadmits : ∀ older op newer, ops = older ++ op :: newer →
      op.Clean ∧ older.foldl (fun count (_ : Listening) => count + 1) 0 < n := by
    intro older op newer hops
    refine ⟨hclean op (hops ▸ List.mem_append_right _ (List.mem_cons_self ..)), ?_⟩
    have hlength := congrArg List.length hops
    rw [List.length_append, List.length_cons] at hlength
    rw [List.foldl_add_const]
    omega
  have hstep : ∀ count w (op : Listening), Listens count w → op.Clean ∧ count < n →
      wp (undisturbed fun _ => False) (answering answer) (op.program n)
        (fun _ => Listens (count + 1)) (fun _ => Listens (count + 1)) w :=
    fun count w op h hadmits => wp_listening hsends op hadmits.1 hadmits.2 h
  obtain ⟨w, hperform⟩ := Reentrant.exists_performAll hobeys hstep (fun _ _ h => h) ops hstart
    hadmits
  have hlistens := Reentrant.simulates hobeys hstep ops hstart hadmits hperform
  refine ⟨w, hperform, hlistens.mirrored, fun pattern callback hmem => ?_⟩
  unfold Event.listen
  rw [if_neg (hlistens.clean pattern hmem).1]
  change evaluate _ (Prog.when (pattern ∉ w.state.event.listenerMap) _) w = _
  unfold Prog.when
  rw [if_neg (not_not_intro hmem)]
  rfl

/-- One pattern is registered before the connection opens, and one is removed later. -/
theorem listeners_mirrored_reopened :
    ∃ w, performAll (.quiet accepting) (Listening.program 9)
        [.listen (bytes "a") (some 0), .listen (bytes "b") (some 1), .become .open,
          .unlisten (bytes "a"), .become .reconnecting, .become .open] { state := {} } = .ok w ∧
      (w.state.state = .open → Mirrored w) ∧
      ∀ pattern callback, pattern ∈ w.state.event.listenerMap →
        evaluate (.quiet accepting) (Event.listen sendWhileOpen pattern callback) w =
          (.done (), w) :=
  listeners_mirrored accepting (fun _ _ _ => rfl) _ (by
    intro op hop
    simp only [List.mem_cons, List.not_mem_nil, or_false] at hop
    rcases hop with rfl | rfl | rfl | rfl | rfl | rfl <;> trivial) 9 (by decide)

end Event
end Deepstream
