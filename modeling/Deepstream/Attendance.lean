import Deepstream.Alternation
import Deepstream.Registration

/-!
Registrations of a `Presence` object.

As for events, without names: the object has one list of identifiers and one map
of callbacks, and `Represents` says what they stand for.
-/

namespace Deepstream
namespace Presence

open Event (lookup_erase lookup_insertIfNew)
open Reentrant (wp)

structure Follower where
  id : Nat
  callback : Function

/-- The followers there should be, in order, and the next identifier -/
structure Following where
  followers : List Follower := []
  counter : Nat := 0

namespace Following

def ids (s : Following) : List Nat :=
  s.followers.map Follower.id

def subscribe (s : Following) (callback : Function) : Following where
  followers := s.followers ++ [⟨s.counter, callback⟩]
  counter := (s.counter + 1) % 2 ^ 64

def unsubscribeId (s : Following) (id : Nat) : Following :=
  { s with followers := s.followers.filter (·.id ≠ id) }

def unsubscribe (s : Following) : Following :=
  { s with followers := [] }

def step (s : Following) : Operation → Following
  | .subscribe callback => s.subscribe callback
  | .unsubscribeId id => s.unsubscribeId id
  | .unsubscribe => s.unsubscribe

/-- Every subscription gets an identifier that is not in use. -/
def Admits (s : Following) : Operation → Prop
  | .subscribe _ => s.counter ∉ s.ids
  | _ => True

theorem ids_subscribe (s : Following) (callback : Function) :
    (s.subscribe callback).ids = s.ids ++ [s.counter] :=
  List.map_append

theorem ids_unsubscribeId {s : Following} (hnodup : s.ids.Nodup) (id : Nat) :
    (s.unsubscribeId id).ids = s.ids.erase id := by
  rw [hnodup.erase_eq_filter]
  unfold ids unsubscribeId
  rw [List.filter_map]
  congr 1
  apply List.filter_congr
  intro r _
  by_cases hid : r.id = id <;> simp [hid]

end Following

/-- How an object holds the followers there should be -/
structure Represents (s : Following) (w : World) : Prop where
  counter : w.state.subscriptionCounter = s.counter
  nodup : s.ids.Nodup
  subscribers : w.state.presence.subscribers = s.ids
  registered : ∀ r ∈ s.followers, w.state.presence.subscribeFnMap[r.id]? = some r.callback
  keys : ∀ id : Nat, w.state.presence.subscribeFnMap[id]? ≠ none → id ∈ s.ids

namespace Represents
variable {s : Following} {w w' : World}

theorem mem_fns (h : Represents s w) (id : Nat) :
    id ∈ w.state.presence.subscribeFnMap ↔ id ∈ s.ids := by
  rw [Std.TreeMap.mem_iff_isSome_getElem?, Option.isSome_iff_ne_none]
  constructor
  · exact h.keys id
  · intro hmem
    obtain ⟨r, hr, rfl⟩ := List.mem_map.mp hmem
    rw [h.registered r hr]
    exact Option.some_ne_none _

theorem kept (h : Represents s w) : Kept w.state.presence where
  nodup := by
    rw [h.subscribers]
    exact h.nodup
  keys id := by
    rw [h.subscribers]
    exact h.mem_fns id

theorem same (h : Represents s w) (hcounter : w'.state.subscriptionCounter = s.counter)
    (hsubscribers : w'.state.presence.subscribers = w.state.presence.subscribers)
    (hfns : ∀ id : Nat,
      w'.state.presence.subscribeFnMap[id]? = w.state.presence.subscribeFnMap[id]?) :
    Represents s w' where
  counter := hcounter
  nodup := h.nodup
  subscribers := hsubscribers.trans h.subscribers
  registered r hr := (hfns r.id).trans (h.registered r hr)
  keys id hid := h.keys id (hfns id ▸ hid)

/-- An identifier was taken by another object. -/
theorem recount {counter : Nat} (h : Represents s w)
    (hcounter : w'.state.subscriptionCounter = counter)
    (hpresence : w'.state.presence = w.state.presence) : Represents { s with counter } w' where
  counter := hcounter
  nodup := h.nodup
  subscribers := by
    rw [hpresence]
    exact h.subscribers
  registered := by
    rw [hpresence]
    exact h.registered
  keys := by
    rw [hpresence]
    exact h.keys

theorem subscribe (h : Represents s w) (hfresh : s.counter ∉ s.ids) {callback : Function}
    (hcounter : w'.state.subscriptionCounter = (s.counter + 1) % 2 ^ 64)
    (hsubscribers : w'.state.presence.subscribers = s.ids ++ [s.counter])
    (hfns : ∀ id : Nat, w'.state.presence.subscribeFnMap[id]? =
      if id = s.counter then some callback else w.state.presence.subscribeFnMap[id]?) :
    Represents (s.subscribe callback) w' where
  counter := hcounter
  nodup := by
    rw [Following.ids_subscribe, List.nodup_append_comm]
    exact List.nodup_cons.mpr ⟨hfresh, h.nodup⟩
  subscribers := hsubscribers.trans (Following.ids_subscribe s callback).symm
  registered r hr := by
    rw [hfns]
    cases List.mem_append.mp hr with
    | inl hr =>
        rw [if_neg, h.registered r hr]
        exact fun hid => hfresh (List.mem_map.mpr ⟨r, hr, hid⟩)
    | inr hr =>
        cases List.mem_singleton.mp hr
        exact if_pos rfl
  keys id hid := by
    rw [hfns] at hid
    rw [Following.ids_subscribe, List.mem_append]
    by_cases heq : id = s.counter
    · exact .inr (List.mem_singleton.mpr heq)
    · rw [if_neg heq] at hid
      exact .inl (h.keys id hid)

theorem unsubscribeId (h : Represents s w) {id : Nat}
    (hcounter : w'.state.subscriptionCounter = s.counter)
    (hsubscribers : w'.state.presence.subscribers = s.ids.erase id)
    (hfns : ∀ id' : Nat, w'.state.presence.subscribeFnMap[id']? =
      if id' = id then none else w.state.presence.subscribeFnMap[id']?) :
    Represents (s.unsubscribeId id) w' where
  counter := hcounter
  nodup := by
    rw [Following.ids_unsubscribeId h.nodup]
    exact h.nodup.erase id
  subscribers := hsubscribers.trans (Following.ids_unsubscribeId h.nodup id).symm
  registered r hr := by
    obtain ⟨hr, hid⟩ := List.mem_filter.mp hr
    rw [hfns, if_neg (of_decide_eq_true hid), h.registered r hr]
  keys id' hid := by
    rw [hfns] at hid
    split at hid
    · exact absurd rfl hid
    · next hne =>
        rw [Following.ids_unsubscribeId h.nodup]
        exact (List.mem_erase_of_ne hne).mpr (h.keys id' hid)

theorem unsubscribeId_of_not_mem (h : Represents s w) {id : Nat} (hid : id ∉ s.ids) :
    Represents (s.unsubscribeId id) w := by
  apply h.unsubscribeId h.counter
  · rw [h.subscribers, List.erase_of_not_mem hid]
  · intro id'
    split
    · next heq =>
        by_contra hne
        exact hid (heq ▸ h.keys id' hne)
    · rfl

end Represents

section Operations
variable {w w' : World} {s : Following} {op : Operation}

/-- A call that is admitted does what it should. -/
theorem Represents.does (h : Represents s w) (hadmits : s.Admits op) (hdoes : op.Does w w') :
    Represents (s.step op) w' := by
  have hstate := hdoes.state
  cases op with
  | subscribe callback =>
      have hnew : s.counter ∉ w.state.presence.subscribeFnMap :=
        fun hmem => hadmits ((h.mem_fns _).mp hmem)
      apply h.subscribe hadmits
      · rw [hstate, ← h.counter]
        rfl
      · rw [hstate, ← h.counter, ← h.subscribers]
        rfl
      · intro id
        have hfns : w'.state.presence.subscribeFnMap =
            w.state.presence.subscribeFnMap.insertIfNew s.counter callback := by
          rw [hstate, ← h.counter]
          rfl
        rw [hfns, lookup_insertIfNew]
        simp [hnew]
  | unsubscribeId id =>
      by_cases hmem : id ∈ w.state.presence.subscribers
      · rw [Operation.leaves_of_mem hmem] at hstate
        apply h.unsubscribeId
        · rw [hstate]
          exact h.counter
        · rw [hstate, ← h.subscribers]
        · rw [hstate]
          exact lookup_erase w.state.presence.subscribeFnMap id
      · rw [Operation.leaves_of_not_mem hmem] at hstate
        apply (h.unsubscribeId_of_not_mem (h.subscribers ▸ hmem)).same
        · rw [hstate]
          exact h.counter
        · rw [hstate]
        · rw [hstate]
          exact fun _ => rfl
  | unsubscribe =>
      refine ⟨?_, List.nodup_nil, ?_, fun r hr => absurd hr List.not_mem_nil, ?_⟩
      · rw [hstate]
        exact h.counter
      · rw [hstate]
        rfl
      · rw [hstate]
        exact fun id hid => (hid Std.TreeMap.getElem?_emptyc).elim

theorem represents_nil : Represents {} { state := {} } where
  counter := rfl
  nodup := List.nodup_nil
  subscribers := rfl
  registered _ hr := absurd hr List.not_mem_nil
  keys _ hid := (hid rfl).elim

/-- An operation that is admitted returns, and does what it should. -/
theorem Following.wp_operation [Build] {C : Reentrant.Contract interface}
    {P : Reentrant.Policy interface} (hsends : Sends C P) (op : Operation) (h : Represents s w)
    (hadmits : s.Admits op) :
    wp C P op.program (fun _ w' => Represents (s.step op) w' ∧ Beside Client.event w w')
      (fun _ _ => False) w := by
  apply Presence.wp_operation hsends op fun _ => h.kept
  · rintro - callback rfl
    rw [h.counter, h.subscribers]
    exact hadmits
  · exact fun w' hdoes => ⟨h.does hadmits hdoes, hdoes.beside⟩

end Operations

end Presence
end Deepstream
