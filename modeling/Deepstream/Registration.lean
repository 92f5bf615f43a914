import Deepstream.Client.Objects

/-!
Registrations of an `Event` object.

What subscribing means is a list of registrations in the order in which they
were made. The object spreads it over two maps and a list of identifiers for
every name; `Represents` says how.
-/

namespace Deepstream
namespace Event

open Reentrant (Prog answering evaluate performAll undisturbed wp)

structure Registration where
  name : Buffer
  id : Nat
  callback : Function

/-- The registrations there should be, in order, and the next identifier -/
structure Registry where
  registrations : List Registration := []
  counter : Nat := 0

namespace Registry

def ids (s : Registry) (name : Buffer) : List Nat :=
  (s.registrations.filter (·.name = name)).map Registration.id

def callbacks (s : Registry) (name : Buffer) : List Function :=
  (s.registrations.filter (·.name = name)).map Registration.callback

/-- An identifier is taken, by this object or by another one that has the same counter. -/
def skip (s : Registry) : Registry :=
  { s with counter := (s.counter + 1) % 2 ^ 64 }

def subscribe (s : Registry) (name : Buffer) (callback : Function) : Registry :=
  { registrations := s.registrations ++ [⟨name, s.counter, callback⟩]
    counter := (s.counter + 1) % 2 ^ 64 }

def unsubscribe (s : Registry) (name : Buffer) : Registry :=
  { s with registrations := s.registrations.filter (·.name ≠ name) }

def unsubscribeId (s : Registry) (name : Buffer) (id : Nat) : Registry :=
  { s with registrations := s.registrations.filter fun r => ¬(r.name = name ∧ r.id = id) }

/-- The next identifier is not in use. -/
def Fresh (s : Registry) : Prop :=
  s.counter ∉ s.registrations.map Registration.id

/-- An identifier that is in use is in use under this name, if the name has subscribers. -/
def Matches (s : Registry) (name : Buffer) (id : Nat) : Prop :=
  s.ids name ≠ [] → id ∈ s.registrations.map Registration.id → id ∈ s.ids name

theorem mem_ids {s : Registry} {name : Buffer} {id : Nat} :
    id ∈ s.ids name ↔ ∃ r ∈ s.registrations, r.name = name ∧ r.id = id := by
  unfold ids
  simp only [List.mem_map, List.mem_filter, decide_eq_true_eq, and_assoc]

theorem ids_subscribe (s : Registry) (name : Buffer) (callback : Function) (name' : Buffer) :
    (s.subscribe name callback).ids name' =
      if name' = name then s.ids name' ++ [s.counter] else s.ids name' := by
  unfold ids subscribe
  rw [List.filter_append, List.map_append]
  by_cases h : name' = name
  · subst h
    simp
  · simp [h, Ne.symm h]

theorem ids_unsubscribe (s : Registry) (name name' : Buffer) :
    (s.unsubscribe name).ids name' = if name' = name then [] else s.ids name' := by
  unfold ids unsubscribe
  rw [List.filter_filter]
  by_cases h : name' = name
  · subst h
    simp
  · rw [if_neg h]
    congr 1
    apply List.filter_congr
    intro r _
    by_cases hr : r.name = name'
    · simp [hr, h]
    · simp [hr]

theorem unsubscribeId_of_not_mem {s : Registry} {name : Buffer} {id : Nat} (h : id ∉ s.ids name) :
    s.unsubscribeId name id = s := by
  unfold unsubscribeId
  congr 1
  apply List.filter_eq_self.mpr
  intro r hr
  exact decide_eq_true fun hboth => h (mem_ids.mpr ⟨r, hr, hboth⟩)

theorem ids_unsubscribeId (s : Registry) (hnodup : (s.ids name).Nodup) (id : Nat) (name' : Buffer) :
    (s.unsubscribeId name id).ids name' =
      if name' = name then (s.ids name').erase id else s.ids name' := by
  by_cases h : name' = name
  · subst h
    rw [if_pos rfl, hnodup.erase_eq_filter]
    unfold ids unsubscribeId
    rw [List.filter_filter, List.filter_map, List.filter_filter]
    congr 1
    apply List.filter_congr
    intro r _
    by_cases hr : r.name = name' <;> by_cases hid : r.id = id <;> simp [hr, hid]
  · rw [if_neg h]
    unfold ids unsubscribeId
    rw [List.filter_filter]
    congr 1
    apply List.filter_congr
    intro r _
    by_cases hr : r.name = name'
    · simp [hr, h]
    · simp [hr]

end Registry

section Lookup
variable {K V : Type} {cmp : K → K → Ordering} [Std.TransCmp cmp] [Std.LawfulEqCmp cmp]
  [DecidableEq K] (map : Std.TreeMap K V cmp)

theorem lookup_insert (key key' : K) (value : V) :
    (map.insert key value)[key']? = if key' = key then some value else map[key']? := by
  rw [Std.TreeMap.getElem?_insert]
  by_cases h : key' = key
  · simp [h]
  · simp [h, Ne.symm h]

theorem lookup_erase (key key' : K) :
    (map.erase key)[key']? = if key' = key then none else map[key']? := by
  rw [Std.TreeMap.getElem?_erase]
  by_cases h : key' = key
  · simp [h]
  · simp [h, Ne.symm h]

theorem lookup_insertIfNew (key key' : K) (value : V) :
    (map.insertIfNew key value)[key']? =
      if key' = key ∧ map[key]? = none then some value else map[key']? := by
  rw [Std.TreeMap.getElem?_insertIfNew]
  by_cases h : key' = key
  · by_cases hmem : key ∈ map
    · simp [h, hmem]
    · simp [h, hmem]
  · simp [h, Ne.symm h]

variable {map} in
theorem lookup_insertIfNew_of_found {key : K} {value : V} (h : map[key]? = some value)
    (value' : V) (key' : K) : (map.insertIfNew key value')[key']? = map[key']? := by
  rw [lookup_insertIfNew, if_neg]
  rintro ⟨-, hnone⟩
  rw [h] at hnone
  cases hnone

variable {map} in
theorem getD_insertIfNew_of_found {key : K} {value : V} (h : map[key]? = some value)
    (value' fallback : V) : (map.insertIfNew key value').getD key fallback = value := by
  rw [Std.TreeMap.getD_eq_getD_getElem?, lookup_insertIfNew_of_found h, h]
  rfl

theorem lookup_eraseAll (keys : List K) (key' : K) :
    (keys.foldl Std.TreeMap.erase map)[key']? = if key' ∈ keys then none else map[key']? := by
  induction keys generalizing map with
  | nil => simp
  | cons key keys ih =>
      rw [List.foldl_cons, ih, lookup_erase]
      by_cases h : key' = key <;> simp [h]

end Lookup

/-- How an object holds the registrations there should be -/
structure Represents (s : Registry) (w : World) : Prop where
  counter : w.state.subscriptionCounter = s.counter
  nodup : (s.registrations.map Registration.id).Nodup
  found : ∀ (name : Buffer) (node : Node (List Nat)),
    w.state.event.subscriberMap[name]? = some node → node.value = s.ids name ∧ s.ids name ≠ []
  missing : ∀ name : Buffer, w.state.event.subscriberMap[name]? = none → s.ids name = []
  registered : ∀ r ∈ s.registrations, w.state.event.subscribeFnMap[r.id]? = some r.callback
  keys : ∀ id : Nat, w.state.event.subscribeFnMap[id]? ≠ none →
    id ∈ s.registrations.map Registration.id

/-- The keys of `subscribe_fn_map_` are the disjoint union of the lists, none of which is
empty. -/
structure WellFormed (e : Event) : Prop where
  nonempty : ∀ (name : Buffer) (node : Node (List Nat)),
    e.subscriberMap[name]? = some node → node.value ≠ []
  nodup : ∀ (name : Buffer) (node : Node (List Nat)),
    e.subscriberMap[name]? = some node → node.value.Nodup
  disjoint : ∀ (name name' : Buffer) (node node' : Node (List Nat)) (id : Nat),
    e.subscriberMap[name]? = some node → e.subscriberMap[name']? = some node' →
      id ∈ node.value → id ∈ node'.value → name = name'
  keys : ∀ id : Nat, id ∈ e.subscribeFnMap ↔
    ∃ (name : Buffer) (node : Node (List Nat)), e.subscriberMap[name]? = some node ∧ id ∈ node.value

namespace Represents
variable {s : Registry} {w w' : World}

theorem same (h : Represents s w) (hcounter : w'.state.subscriptionCounter = s.counter)
    (hmap : w'.state.event.subscriberMap = w.state.event.subscriberMap)
    (hfns : ∀ id : Nat, w'.state.event.subscribeFnMap[id]? = w.state.event.subscribeFnMap[id]?) :
    Represents s w' where
  counter := hcounter
  nodup := h.nodup
  found := by
    rw [hmap]
    exact h.found
  missing := by
    rw [hmap]
    exact h.missing
  registered r hr := (hfns r.id).trans (h.registered r hr)
  keys id hid := h.keys id (hfns id ▸ hid)

/-- An identifier was taken by another object. -/
theorem recount {counter : Nat} (h : Represents s w)
    (hcounter : w'.state.subscriptionCounter = counter)
    (hevent : w'.state.event = w.state.event) : Represents { s with counter } w' where
  counter := hcounter
  nodup := h.nodup
  found := by
    rw [hevent]
    exact h.found
  missing := by
    rw [hevent]
    exact h.missing
  registered := by
    rw [hevent]
    exact h.registered
  keys := by
    rw [hevent]
    exact h.keys

theorem nodup_ids (h : Represents s w) (name : Buffer) : (s.ids name).Nodup :=
  h.nodup.sublist (List.filter_sublist.map _)

theorem name_unique (h : Represents s w) {r r' : Registration} (hr : r ∈ s.registrations)
    (hr' : r' ∈ s.registrations) (hid : r.id = r'.id) : r = r' :=
  List.inj_on_of_nodup_map h.nodup hr hr' hid

theorem mem_fns (h : Represents s w) (id : Nat) :
    id ∈ w.state.event.subscribeFnMap ↔ id ∈ s.registrations.map Registration.id := by
  rw [Std.TreeMap.mem_iff_isSome_getElem?, Option.isSome_iff_ne_none]
  constructor
  · exact h.keys id
  · intro hmem
    obtain ⟨r, hr, rfl⟩ := List.mem_map.mp hmem
    rw [h.registered r hr]
    exact Option.some_ne_none _

theorem exists_node (h : Represents s w) {name : Buffer} (hne : s.ids name ≠ []) :
    ∃ node, w.state.event.subscriberMap[name]? = some node ∧ node.value = s.ids name := by
  cases hnode : w.state.event.subscriberMap[name]? with
  | none => exact absurd (h.missing name hnode) hne
  | some node => exact ⟨node, rfl, (h.found name node hnode).1⟩

theorem wellFormed (h : Represents s w) : WellFormed w.state.event where
  nonempty name node hnode := by
    rw [(h.found name node hnode).1]
    exact (h.found name node hnode).2
  nodup name node hnode := by
    rw [(h.found name node hnode).1]
    exact h.nodup_ids name
  disjoint name name' node node' id hnode hnode' hid hid' := by
    rw [(h.found name node hnode).1, Registry.mem_ids] at hid
    rw [(h.found name' node' hnode').1, Registry.mem_ids] at hid'
    obtain ⟨r, hr, rfl, hrid⟩ := hid
    obtain ⟨r', hr', rfl, hrid'⟩ := hid'
    rw [h.name_unique hr hr' (hrid.trans hrid'.symm)]
  keys id := by
    rw [h.mem_fns]
    constructor
    · intro hmem
      obtain ⟨r, hr, rfl⟩ := List.mem_map.mp hmem
      have hids : r.id ∈ s.ids r.name := Registry.mem_ids.mpr ⟨r, hr, rfl, rfl⟩
      obtain ⟨node, hnode, hvalue⟩ := h.exists_node (List.ne_nil_of_mem hids)
      exact ⟨r.name, node, hnode, hvalue ▸ hids⟩
    · rintro ⟨name, node, hnode, hid⟩
      rw [(h.found name node hnode).1, Registry.mem_ids] at hid
      obtain ⟨r, hr, -, rfl⟩ := hid
      exact List.mem_map_of_mem hr

/-- A registration was added. -/
theorem subscribe (h : Represents s w) (hfresh : s.Fresh) {name : Buffer} {callback : Function}
    {place : Nat} (hcounter : w'.state.subscriptionCounter = (s.counter + 1) % 2 ^ 64)
    (hmap : ∀ name' : Buffer, w'.state.event.subscriberMap[name']? = if name' = name
      then some ⟨place, s.ids name ++ [s.counter]⟩ else w.state.event.subscriberMap[name']?)
    (hfns : ∀ id : Nat, w'.state.event.subscribeFnMap[id]? = if id = s.counter
      then some callback else w.state.event.subscribeFnMap[id]?) :
    Represents (s.subscribe name callback) w' where
  counter := hcounter
  nodup := by
    unfold Registry.subscribe
    rw [List.map_append, List.nodup_append_comm]
    exact List.nodup_cons.mpr ⟨hfresh, h.nodup⟩
  found name' node hnode := by
    rw [hmap] at hnode
    rw [Registry.ids_subscribe]
    by_cases hname : name' = name
    · rw [if_pos hname] at hnode ⊢
      cases hnode
      rw [hname]
      exact ⟨rfl, List.append_ne_nil_of_right_ne_nil _ (List.cons_ne_nil _ _)⟩
    · rw [if_neg hname] at hnode ⊢
      exact h.found name' node hnode
  missing name' hnode := by
    rw [hmap] at hnode
    rw [Registry.ids_subscribe]
    by_cases hname : name' = name
    · rw [if_pos hname] at hnode
      cases hnode
    · rw [if_neg hname] at hnode ⊢
      exact h.missing name' hnode
  registered r hr := by
    rw [hfns]
    cases List.mem_append.mp hr with
    | inl hr =>
        rw [if_neg, h.registered r hr]
        exact fun hid => hfresh (List.mem_map.mpr ⟨r, hr, hid⟩)
    | inr hr =>
        cases List.mem_singleton.mp hr
        exact if_pos rfl
  keys id hid := by
    rw [hfns] at hid
    unfold Registry.subscribe
    rw [List.map_append, List.mem_append]
    by_cases heq : id = s.counter
    · exact .inr (List.mem_singleton.mpr heq)
    · rw [if_neg heq] at hid
      exact .inl (h.keys id hid)

/-- All registrations of a name were removed. -/
theorem unsubscribe (h : Represents s w) {name : Buffer}
    (hcounter : w'.state.subscriptionCounter = s.counter)
    (hmap : ∀ name' : Buffer, w'.state.event.subscriberMap[name']? = if name' = name
      then none else w.state.event.subscriberMap[name']?)
    (hfns : ∀ id : Nat, w'.state.event.subscribeFnMap[id]? = if id ∈ s.ids name
      then none else w.state.event.subscribeFnMap[id]?) :
    Represents (s.unsubscribe name) w' where
  counter := hcounter
  nodup := h.nodup.sublist (List.filter_sublist.map _)
  found name' node hnode := by
    rw [hmap] at hnode
    rw [Registry.ids_unsubscribe]
    by_cases hname : name' = name
    · rw [if_pos hname] at hnode
      cases hnode
    · rw [if_neg hname] at hnode ⊢
      exact h.found name' node hnode
  missing name' hnode := by
    rw [hmap] at hnode
    rw [Registry.ids_unsubscribe]
    by_cases hname : name' = name
    · exact if_pos hname
    · rw [if_neg hname] at hnode ⊢
      exact h.missing name' hnode
  registered r hr := by
    obtain ⟨hr, hname⟩ := List.mem_filter.mp hr
    rw [hfns, if_neg, h.registered r hr]
    intro hid
    obtain ⟨r', hr', hname', hid'⟩ := Registry.mem_ids.mp hid
    cases h.name_unique hr' hr hid'
    exact of_decide_eq_true hname hname'
  keys id hid := by
    rw [hfns] at hid
    split at hid
    · exact absurd rfl hid
    · next hout =>
        obtain ⟨r, hr, rfl⟩ := List.mem_map.mp (h.keys id hid)
        refine List.mem_map_of_mem (List.mem_filter.mpr ⟨hr, decide_eq_true fun hname => ?_⟩)
        exact hout (Registry.mem_ids.mpr ⟨r, hr, hname, rfl⟩)

/-- One registration was removed, and the name with it if it was the last one. -/
theorem unsubscribeId (h : Represents s w) {name : Buffer} {id : Nat} (hid : id ∈ s.ids name)
    (hcounter : w'.state.subscriptionCounter = s.counter)
    (hother : ∀ name' ≠ name, w'.state.event.subscriberMap[name']? =
      w.state.event.subscriberMap[name']?)
    (hfound : ∀ node : Node (List Nat), w'.state.event.subscriberMap[name]? = some node →
      node.value = (s.ids name).erase id ∧ (s.ids name).erase id ≠ [])
    (hmissing : w'.state.event.subscriberMap[name]? = none → (s.ids name).erase id = [])
    (hfns : ∀ id' : Nat, w'.state.event.subscribeFnMap[id']? = if id' = id
      then none else w.state.event.subscribeFnMap[id']?) :
    Represents (s.unsubscribeId name id) w' where
  counter := hcounter
  nodup := h.nodup.sublist (List.filter_sublist.map _)
  found name' node hnode := by
    rw [Registry.ids_unsubscribeId s (h.nodup_ids name)]
    by_cases hname : name' = name
    · subst hname
      rw [if_pos rfl]
      exact hfound node hnode
    · rw [if_neg hname]
      exact h.found name' node (hother name' hname ▸ hnode)
  missing name' hnode := by
    rw [Registry.ids_unsubscribeId s (h.nodup_ids name)]
    by_cases hname : name' = name
    · subst hname
      rw [if_pos rfl]
      exact hmissing hnode
    · rw [if_neg hname]
      exact h.missing name' (hother name' hname ▸ hnode)
  registered r hr := by
    obtain ⟨hr, hkeep⟩ := List.mem_filter.mp hr
    rw [hfns, if_neg, h.registered r hr]
    intro heq
    obtain ⟨r', hr', hname', hid'⟩ := Registry.mem_ids.mp hid
    cases h.name_unique hr' hr (hid'.trans heq.symm)
    exact of_decide_eq_true hkeep ⟨hname', hid'⟩
  keys id' hid' := by
    rw [hfns] at hid'
    split at hid'
    · exact absurd rfl hid'
    · next hne =>
        obtain ⟨r, hr, rfl⟩ := List.mem_map.mp (h.keys id' hid')
        apply List.mem_map_of_mem
        exact List.mem_filter.mpr ⟨hr, decide_eq_true fun hboth => hne hboth.2⟩

end Represents

section Programs
variable [Build] {C : Reentrant.Contract interface} {P : Reentrant.Policy interface} {w : World}
  {s : Registry} {E : Exception → World → Prop} (hsends : Sends C P)

omit [Build] in
include hsends in
theorem wp_tell {action : Action} {name : Buffer} (hclean : asciiUnitSeparator ∉ name)
    {Q : Unit → World → Prop}
    (hQ : ∀ w' : World, w'.state = w.state → Beside Client.presence w w' → Q () w') :
    wp C P
      (Program.build .event action [name] >>= fun message => Program.ignore (mockSend message.val))
      Q E w := by
  rw [Reentrant.wp_bind]
  apply wp_build_clean hclean
  intro message
  apply wp_mockSend_ignored hsends
  exact fun w' hstate _ hcalled => hQ w' hstate ⟨hcalled, congrArg Client.presence hstate⟩

/-- An identifier is appended to the list of a name, which is there. -/
theorem wp_pushSubscriber {name : Buffer} {node : Node (List Nat)} {id : Nat}
    (hfound : w.state.event.subscriberMap[name]? = some node) (hid : id ∉ node.value)
    {Q : Unit → World → Prop}
    (hQ : ∀ w' : World, w'.state.subscriptionCounter = w.state.subscriptionCounter →
      w'.state.event.subscribeFnMap = w.state.event.subscribeFnMap →
      w'.state.event.subscriberMap = w.state.event.subscriberMap.insert name
        ⟨node.place, node.value ++ [id]⟩ → Beside Client.presence w w' → Q () w') :
    wp C P (pushSubscriber name node.place id) Q E w := by
  unfold pushSubscriber
  rw [Reentrant.wp_bind, Reentrant.wp_read, hfound]
  change wp _ _ (if node.place = node.place then _ else _) _ _ _
  rw [if_pos rfl, Reentrant.wp_bind, wp_assert _ _ _ hid]
  exact hQ _ rfl rfl rfl ⟨rfl, rfl⟩

include hsends in
theorem wp_subscribe {name : Buffer} (callback : Function) (h : Represents s w) (hne : name ≠ [])
    (hclean : asciiUnitSeparator ∉ name) (hfresh : s.Fresh) {Q : Nat → World → Prop}
    (hQ : ∀ w', Represents (s.subscribe name callback) w' → Beside Client.presence w w' →
      Q s.counter w') :
    wp C P (Event.subscribe mockSend name callback) Q E w := by
  have hcounter : (w.state.subscriptionCounter + 1) % 2 ^ 64 = (s.counter + 1) % 2 ^ 64 := by
    rw [h.counter]
  have hnew : s.counter ∉ w.state.event.subscribeFnMap := fun hmem => hfresh ((h.mem_fns _).mp hmem)
  have hfns : ∀ id, (w.state.event.subscribeFnMap.insertIfNew s.counter callback)[id]? =
      if id = s.counter then some callback else w.state.event.subscribeFnMap[id]? := by
    intro id
    rw [lookup_insertIfNew]
    simp [hnew]
  have hids : s.counter ∉ s.ids name := by
    intro hmem
    obtain ⟨r, hr, -, hid⟩ := Registry.mem_ids.mp hmem
    exact hfresh (List.mem_map.mpr ⟨r, hr, hid⟩)
  -- the object with the callback and a list for the name
  have hpush : ∀ (w₁ : World) (node : Node (List Nat)), node.value = s.ids name →
      w₁.state.subscriptionCounter = (s.counter + 1) % 2 ^ 64 →
      w₁.state.event.subscribeFnMap = w.state.event.subscribeFnMap.insertIfNew s.counter callback →
      (∀ name', w₁.state.event.subscriberMap[name']? =
        if name' = name then some node else w.state.event.subscriberMap[name']?) →
      Beside Client.presence w w₁ →
      wp C P
        (pushSubscriber name node.place s.counter >>= fun _ => pure s.counter) Q E w₁ := by
    intro w₁ node hvalue hcounter₁ hfns₁ hmap₁ hbeside₁
    rw [Reentrant.wp_bind]
    have hfound : w₁.state.event.subscriberMap[name]? = some node := by rw [hmap₁, if_pos rfl]
    apply wp_pushSubscriber hfound (hvalue ▸ hids)
    intro w' hcounter' hfns' hmap' hbeside'
    refine hQ w' ?_ (hbeside₁.trans hbeside')
    apply h.subscribe hfresh (hcounter'.trans hcounter₁)
    · intro name'
      rw [hmap', lookup_insert, hmap₁, hvalue]
      by_cases hname : name' = name
      · rw [if_pos hname, if_pos hname]
      · rw [if_neg hname, if_neg hname, if_neg hname]
    · intro id
      rw [hfns', hfns₁, hfns]
  unfold Event.subscribe
  rw [if_neg hne, Reentrant.wp_bind, wp_nextId, Reentrant.wp_bind]
  unfold insertFn
  rw [Reentrant.wp_bind, Reentrant.wp_read, Reentrant.wp_bind, wp_modifyEvent, Reentrant.wp_pure,
    Reentrant.wp_bind, h.counter, wp_assert _ _ _ (decide_eq_true hnew), Reentrant.wp_bind]
  unfold subscriberList
  rw [Reentrant.wp_bind, Reentrant.wp_read]
  cases hnode : w.state.event.subscriberMap[name]? with
  | some node =>
      obtain ⟨hvalue, hsome⟩ := h.found name node hnode
      change wp _ _ (pure node) _ _ _
      rw [Reentrant.wp_pure, Reentrant.wp_bind, wp_when]
      refine ⟨fun hempty => absurd (hvalue ▸ hempty) hsome, fun _ => ?_⟩
      refine hpush _ node hvalue rfl rfl ?_ ⟨rfl, rfl⟩
      intro name'
      split
      · next hname => exact hname ▸ hnode
      · rfl
  | none =>
      change wp _ _ (Program.modifyEvent _ >>= fun _ => pure _) _ _ _
      rw [Reentrant.wp_bind, wp_modifyEvent, Reentrant.wp_pure, Reentrant.wp_bind, wp_when]
      refine ⟨fun _ => ?_, fun hne => (hne rfl).elim⟩
      apply wp_tell hsends hclean
      intro w' hstate hbeside
      apply hpush w' ⟨w.state.event.places, []⟩ (h.missing name hnode).symm
      · rw [hstate]
      · rw [hstate]
      · intro name'
        rw [hstate, lookup_insert]
      · exact ⟨hbeside.called, hbeside.other⟩

/-- A callback is erased, which is there. -/
theorem wp_eraseFn {id : Nat} (hmem : id ∈ w.state.event.subscribeFnMap) {Q : Unit → World → Prop}
    (hQ : ∀ w' : World, w'.state.subscriptionCounter = w.state.subscriptionCounter →
      w'.state.event.subscriberMap = w.state.event.subscriberMap →
      w'.state.event.subscribeFnMap = w.state.event.subscribeFnMap.erase id →
      Beside Client.presence w w' → Q () w') :
    wp C P (eraseFn id) Q E w := by
  unfold eraseFn
  rw [Reentrant.wp_bind, Reentrant.wp_read, Reentrant.wp_bind, wp_modifyEvent,
    wp_assert _ _ _ hmem]
  exact hQ _ rfl rfl rfl ⟨rfl, rfl⟩

/-- The loop that erases the callbacks of a list -/
theorem wp_eraseFns {ids : List Nat} (hnodup : ids.Nodup)
    (hmem : ∀ id ∈ ids, id ∈ w.state.event.subscribeFnMap) {Q : Unit → World → Prop}
    (hQ : ∀ w' : World, w'.state.subscriptionCounter = w.state.subscriptionCounter →
      w'.state.event.subscriberMap = w.state.event.subscriberMap →
      w'.state.event.subscribeFnMap = ids.foldl Std.TreeMap.erase w.state.event.subscribeFnMap →
      Beside Client.presence w w' → Q () w') :
    wp C P (Prog.forEach ids eraseFn) Q E w := by
  induction ids generalizing w with
  | nil => exact hQ w rfl rfl rfl (.refl w)
  | cons id ids ih =>
      obtain ⟨hid, hnodup⟩ := List.nodup_cons.mp hnodup
      unfold Prog.forEach
      rw [Reentrant.wp_bind]
      apply wp_eraseFn (hmem id (List.mem_cons_self ..))
      intro w₁ hcounter hmap hfns hbeside
      apply ih hnodup
      · intro id' hid'
        have hne : id ≠ id' := fun heq => hid (heq ▸ hid')
        rw [hfns]
        exact Std.TreeMap.mem_erase.mpr
          ⟨fun heq => hne (Std.LawfulEqCmp.eq_of_compare heq),
            hmem id' (List.mem_cons_of_mem _ hid')⟩
      · intro w' hcounter' hmap' hfns' hbeside'
        refine hQ w' (hcounter'.trans hcounter) (hmap'.trans hmap) ?_ (hbeside.trans hbeside')
        rw [hfns', hfns]
        rfl

include hsends in
/-- A name is removed with the callbacks of its list. -/
theorem wp_unsubscribe_node {name : Buffer} {node : Node (List Nat)}
    (hfound : w.state.event.subscriberMap[name]? = some node)
    (hclean : asciiUnitSeparator ∉ name) (hnodup : node.value.Nodup)
    (hmem : ∀ id ∈ node.value, id ∈ w.state.event.subscribeFnMap) {Q : Unit → World → Prop}
    (hQ : ∀ w' : World, w'.state.subscriptionCounter = w.state.subscriptionCounter →
      w'.state.event.subscriberMap = w.state.event.subscriberMap.erase name →
      w'.state.event.subscribeFnMap =
        node.value.foldl Std.TreeMap.erase w.state.event.subscribeFnMap →
      Beside Client.presence w w' → Q () w') :
    wp C P (Event.unsubscribe mockSend name) Q E w := by
  unfold Event.unsubscribe
  rw [Reentrant.wp_bind, Reentrant.wp_read, hfound]
  change wp _ _ (Prog.forEach node.value eraseFn >>= fun _ => _) _ _ _
  rw [Reentrant.wp_bind]
  apply wp_eraseFns hnodup hmem
  intro w₁ hcounter hmap hfns hbeside
  rw [Reentrant.wp_bind, wp_modifyEvent, Reentrant.wp_bind, Reentrant.wp_read, wp_when]
  refine ⟨fun _ => ?_, fun _ => ?_⟩
  · apply wp_tell hsends hclean
    intro w' hstate hbeside'
    apply hQ
    · rw [hstate]
      exact hcounter
    · rw [hstate, ← hmap]
    · rw [hstate, ← hfns]
    · exact hbeside.trans ⟨hbeside'.called, hbeside'.other⟩
  · refine hQ _ hcounter ?_ hfns ⟨hbeside.called, hbeside.other⟩
    rw [← hmap]

include hsends in
theorem wp_unsubscribe {name : Buffer} (h : Represents s w) (hclean : asciiUnitSeparator ∉ name)
    {Q : Unit → World → Prop}
    (hQ : ∀ w', Represents (s.unsubscribe name) w' → Beside Client.presence w w' → Q () w') :
    wp C P (Event.unsubscribe mockSend name) Q E w := by
  cases hnode : w.state.event.subscriberMap[name]? with
  | none =>
      have hids := h.missing name hnode
      unfold Event.unsubscribe
      rw [Reentrant.wp_bind, Reentrant.wp_read, hnode]
      refine hQ w ?_ (.refl w)
      apply h.unsubscribe h.counter
      · intro name'
        split
        · next hname => exact hname ▸ hnode
        · rfl
      · intro id
        rw [hids, if_neg List.not_mem_nil]
  | some node =>
      obtain ⟨hvalue, -⟩ := h.found name node hnode
      apply wp_unsubscribe_node hsends hnode hclean
      · rw [hvalue]
        exact h.nodup_ids name
      · intro id hid
        rw [hvalue, Registry.mem_ids] at hid
        obtain ⟨r, hr, -, rfl⟩ := hid
        exact (h.mem_fns _).mpr (List.mem_map_of_mem hr)
      · intro w' hcounter hmap hfns hbeside
        refine hQ w' ?_ hbeside
        apply h.unsubscribe (hcounter.trans h.counter)
        · intro name'
          rw [hmap, lookup_erase]
        · intro id
          rw [hfns, lookup_eraseAll, hvalue]

include hsends in
theorem wp_unsubscribeId {name : Buffer} {id : Nat} (h : Represents s w)
    (hclean : asciiUnitSeparator ∉ name) (hmatches : Build.asserts = true → s.Matches name id)
    {Q : Unit → World → Prop}
    (hQ : ∀ w', Represents (s.unsubscribeId name id) w' → Beside Client.presence w w' → Q () w') :
    wp C P (Event.unsubscribeId mockSend name id) Q E w := by
  unfold Event.unsubscribeId
  rw [Reentrant.wp_bind, Reentrant.wp_read]
  cases hnode : w.state.event.subscriberMap[name]? with
  | none =>
      refine hQ w ?_ (.refl w)
      have hids := h.missing name hnode
      rw [Registry.unsubscribeId_of_not_mem (hids ▸ List.not_mem_nil)]
      exact h
  | some node =>
      obtain ⟨hvalue, hne⟩ := h.found name node hnode
      change wp _ _ (if id ∈ node.value then _ else _) _ _ _
      by_cases hid : id ∈ node.value
      · have hids : id ∈ s.ids name := hvalue ▸ hid
        have hmem : id ∈ w.state.event.subscribeFnMap := by
          obtain ⟨r, hr, -, rfl⟩ := Registry.mem_ids.mp hids
          exact (h.mem_fns _).mpr (List.mem_map_of_mem hr)
        rw [if_pos hid, Reentrant.wp_bind, wp_modifyEvent, Reentrant.wp_bind]
        refine wp_eraseFn ?_ fun w₁ hcounter₁ hmap₁ hfns₁ hbeside₁ => ?_
        · exact hmem
        have hinsert : ∀ name' : Buffer, w₁.state.event.subscriberMap[name']? =
            if name' = name then some ⟨node.place, node.value.erase id⟩
            else w.state.event.subscriberMap[name']? := by
          intro name'
          rw [hmap₁]
          exact lookup_insert _ name name' _
        have hfound : w₁.state.event.subscriberMap[name]? =
            some ⟨node.place, node.value.erase id⟩ := (hinsert name).trans (if_pos rfl)
        rw [wp_when]
        refine ⟨fun hempty => ?_, fun hleft => ?_⟩
        · -- the other overload is called with an empty list
          have hnil : (s.ids name).erase id = [] := hvalue ▸ hempty
          apply wp_unsubscribe_node hsends hfound hclean
          · rw [hempty]
            exact List.nodup_nil
          · rw [hempty]
            exact fun _ hmem => absurd hmem List.not_mem_nil
          · intro w' hcounter hmap hfns' hbeside
            have hnone : w'.state.event.subscriberMap[name]? = none := by
              rw [hmap, lookup_erase, if_pos rfl]
            refine hQ w' ?_ (.trans ⟨hbeside₁.called, hbeside₁.other⟩ hbeside)
            apply h.unsubscribeId hids (hcounter.trans (hcounter₁.trans h.counter))
            · intro name' hname
              rw [hmap, lookup_erase, if_neg hname, hinsert, if_neg hname]
            · intro node' hnode'
              rw [hnone] at hnode'
              cases hnode'
            · exact fun _ => hnil
            · intro id'
              rw [hfns', hempty, List.foldl_nil, hfns₁, lookup_erase]
        · refine hQ w₁ ?_ ⟨hbeside₁.called, hbeside₁.other⟩
          apply h.unsubscribeId hids (hcounter₁.trans h.counter)
          · intro name' hname
            exact (hinsert name').trans (if_neg hname)
          · intro node' hnode'
            rw [hfound] at hnode'
            cases hnode'
            rw [← hvalue]
            exact ⟨rfl, hleft⟩
          · intro hnone
            rw [hfound] at hnone
            cases hnone
          · intro id'
            rw [hfns₁, lookup_erase]
      · have hids : id ∉ s.ids name := hvalue ▸ hid
        rw [if_neg hid]
        have hcond : Build.asserts = true → id ∉ w.state.event.subscribeFnMap :=
          fun hasserts hmem => hids (hmatches hasserts hne ((h.mem_fns id).mp hmem))
        rw [wp_assert_enabled _ _ _ hcond]
        refine hQ w ?_ (.refl w)
        rw [Registry.unsubscribeId_of_not_mem hids]
        exact h

omit [Build] in
include hsends in
theorem wp_listen_kept {pattern : Buffer} (callback : Function) (h : Represents s w)
    (hne : pattern ≠ []) (hclean : asciiUnitSeparator ∉ pattern) {Q : Unit → World → Prop}
    (hQ : ∀ w', Represents s w' → Beside Client.presence w w' → Q () w') :
    wp C P (Event.listen mockSend pattern callback) Q E w := by
  unfold Event.listen
  rw [if_neg hne, Reentrant.wp_bind, Reentrant.wp_read, wp_when]
  refine ⟨fun _ => ?_, fun _ => hQ w h (.refl w)⟩
  rw [Reentrant.wp_bind, wp_modifyEvent]
  apply wp_tell hsends hclean
  intro w' hstate hbeside
  refine hQ w' (h.same ?_ ?_ ?_) ⟨hbeside.called, hbeside.other⟩
  · rw [hstate]
    exact h.counter
  · rw [hstate]
  · rw [hstate]
    exact fun _ => rfl

omit [Build] in
include hsends in
theorem wp_unlisten_kept {pattern : Buffer} (h : Represents s w) (hclean : asciiUnitSeparator ∉ pattern)
    {Q : Unit → World → Prop} (hQ : ∀ w', Represents s w' → Beside Client.presence w w' → Q () w') :
    wp C P (Event.unlisten mockSend pattern) Q E w := by
  unfold Event.unlisten
  rw [Reentrant.wp_bind, Reentrant.wp_read, wp_when]
  refine ⟨fun _ => ?_, fun _ => hQ w h (.refl w)⟩
  rw [Reentrant.wp_bind, wp_modifyEvent]
  apply wp_tell hsends hclean
  intro w' hstate hbeside
  refine hQ w' (h.same ?_ ?_ ?_) ⟨hbeside.called, hbeside.other⟩
  · rw [hstate]
    exact h.counter
  · rw [hstate]
  · rw [hstate]
    exact fun _ => rfl

end Programs

/-- A name that is not empty and can be an argument of a message -/
abbrev Name := { name : Buffer // name ≠ [] ∧ asciiUnitSeparator ∉ name }

/-- The calls that change what an object is subscribed to -/
inductive Operation where
  | subscribe (name : Name) (callback : Function)
  | unsubscribe (name : Name)
  | unsubscribeId (name : Name) (id : Nat)
  | listen (pattern : Name) (callback : Function)
  | unlisten (pattern : Name)

/-- The call, and what it returns if it returns anything -/
def Operation.program [Build] : Operation → Program (Option Nat)
  | .subscribe name callback => do
      let id ← Event.subscribe mockSend name.val callback
      return some id
  | .unsubscribe name => do
      Event.unsubscribe mockSend name.val
      return none
  | .unsubscribeId name id => do
      Event.unsubscribeId mockSend name.val id
      return none
  | .listen pattern callback => do
      Event.listen mockSend pattern.val callback
      return none
  | .unlisten pattern => do
      Event.unlisten mockSend pattern.val
      return none

namespace Registry

def step (s : Registry) : Operation → Registry
  | .subscribe name callback => s.subscribe name.val callback
  | .unsubscribe name => s.unsubscribe name.val
  | .unsubscribeId name id => s.unsubscribeId name.val id
  | .listen _ _ | .unlisten _ => s

def returns (s : Registry) : Operation → Option Nat
  | .subscribe _ _ => some s.counter
  | _ => none

/-- What a build needs of an operation -/
def Admits [Build] (s : Registry) : Operation → Prop
  | .subscribe _ _ => s.Fresh
  | .unsubscribeId name id => Build.asserts = true → s.Matches name.val id
  | _ => True

end Registry

section Operations
variable [Build] {C : Reentrant.Contract interface} {P : Reentrant.Policy interface} {w : World}
  {s : Registry}

/-- An operation that is admitted returns, and does what it should. -/
theorem wp_operation (hsends : Sends C P) (op : Operation) (h : Represents s w)
    (hadmits : s.Admits op) :
    wp C P op.program
      (fun result w' =>
        Represents (s.step op) w' ∧ result = s.returns op ∧ Beside Client.presence w w')
      (fun _ _ => False) w := by
  unfold Operation.program
  cases op with
  | subscribe name callback =>
      rw [Reentrant.wp_bind]
      exact wp_subscribe hsends callback h name.property.1 name.property.2 hadmits
        fun _ h' hbeside => ⟨h', rfl, hbeside⟩
  | unsubscribe name =>
      rw [Reentrant.wp_bind]
      exact wp_unsubscribe hsends h name.property.2 fun _ h' hbeside => ⟨h', rfl, hbeside⟩
  | unsubscribeId name id =>
      rw [Reentrant.wp_bind]
      exact wp_unsubscribeId hsends h name.property.2 hadmits
        fun _ h' hbeside => ⟨h', rfl, hbeside⟩
  | listen pattern callback =>
      rw [Reentrant.wp_bind]
      exact wp_listen_kept hsends callback h pattern.property.1 pattern.property.2
        fun _ h' hbeside => ⟨h', rfl, hbeside⟩
  | unlisten pattern =>
      rw [Reentrant.wp_bind]
      exact wp_unlisten_kept hsends h pattern.property.2 fun _ h' hbeside => ⟨h', rfl, hbeside⟩

/-- An operation that is not admitted fails an assertion. -/
theorem wp_operation_fails (habort : ∀ text w, C.abort (.assertion .event text) w)
    (op : Operation) (h : Represents s w) (hasserts : Build.asserts = true)
    (hadmits : ¬s.Admits op) :
    wp C P op.program (fun _ _ => False) (fun _ _ => False) w := by
  unfold Operation.program
  cases op with
  | subscribe name callback =>
      have htaken : ¬s.counter ∉ w.state.event.subscribeFnMap :=
        fun hnew => hadmits fun hmem => hnew ((h.mem_fns _).mpr hmem)
      unfold Event.subscribe
      rw [Reentrant.wp_bind, if_neg name.property.1, Reentrant.wp_bind, wp_nextId,
        Reentrant.wp_bind]
      unfold insertFn
      rw [Reentrant.wp_bind, Reentrant.wp_read, Reentrant.wp_bind, wp_modifyEvent,
        Reentrant.wp_pure, Reentrant.wp_bind, h.counter, wp_assert_fails _ _ _ hasserts]
      · exact habort _ _
      · exact fun htrue => htaken (of_decide_eq_true htrue)
  | unsubscribeId name id =>
      obtain ⟨-, hmatches⟩ := Classical.not_imp.mp hadmits
      obtain ⟨hids, hmatches⟩ := Classical.not_imp.mp hmatches
      obtain ⟨hmem, hid⟩ := Classical.not_imp.mp hmatches
      obtain ⟨node, hnode, hvalue⟩ := h.exists_node hids
      unfold Event.unsubscribeId
      rw [Reentrant.wp_bind, Reentrant.wp_bind, Reentrant.wp_read, hnode]
      change wp _ _ (if id ∈ node.value then _ else _) _ _ _
      rw [hvalue, if_neg hid, wp_assert_fails _ _ _ hasserts]
      · exact habort _ _
      · exact not_not_intro ((h.mem_fns id).mpr hmem)
  | unsubscribe | listen | unlisten => exact absurd trivial hadmits

end Operations

theorem represents_nil : Represents {} { state := {} } where
  counter := rfl
  nodup := List.nodup_nil
  found _ _ hnode := by cases hnode
  missing _ _ := rfl
  registered _ hr := absurd hr List.not_mem_nil
  keys _ hid := (hid rfl).elim

/-- No assertion fails exactly as long as every subscription gets an identifier that is not in
use, and no identifier is removed under one name while it is in use under another. -/
theorem asserts_hold_iff [Build] (hasserts : Build.asserts = true) (answer : Replies)
    (hsends : ∀ w m buffer, ∃ sent, answer w (.wsSend m buffer) = .ok sent)
    (ops : List Operation) :
    (∀ text, performAll (.quiet answer) Operation.program ops { state := {} } ≠
      .error (.assertion .event text)) ↔
    (∀ older name callback newer, ops = older ++ .subscribe name callback :: newer →
      (older.foldl Registry.step {}).Fresh) ∧
    (∀ older name id newer, ops = older ++ .unsubscribeId name id :: newer →
      (older.foldl Registry.step {}).Matches name.val id) := by
  have hadmits : (∀ older op newer, ops = older ++ op :: newer →
      (older.foldl Registry.step {}).Admits op) ↔
      (∀ older name callback newer, ops = older ++ .subscribe name callback :: newer →
        (older.foldl Registry.step {}).Fresh) ∧
      (∀ older name id newer, ops = older ++ .unsubscribeId name id :: newer →
        (older.foldl Registry.step {}).Matches name.val id) := by
    constructor
    · exact fun hall => ⟨fun older name callback newer hops => hall older _ newer hops,
        fun older name id newer hops => hall older _ newer hops hasserts⟩
    · rintro ⟨hfresh, hmatches⟩ older op newer hops
      cases op with
      | subscribe name callback => exact hfresh older name callback newer hops
      | unsubscribeId name id => exact fun _ => hmatches older name id newer hops
      | unsubscribe | listen | unlisten => trivial
  have hstep : ∀ (s : Registry) (w : World) (op : Operation), Represents s w → s.Admits op →
      wp (undisturbed fun _ : Failure => False) (answering answer) op.program
        (fun _ => Represents (s.step op)) (fun _ => Represents (s.step op)) w :=
    fun _ _ op h hadmits => Reentrant.wp_mono (wp_operation (sends_answering hsends) op h hadmits)
      (fun _ _ hw => hw.1) fun _ _ hfalse => hfalse.elim
  have hfail : ∀ (s : Registry) (w : World) (op : Operation), Represents s w → ¬s.Admits op →
      Reentrant.Ends (fun _ _ => False) (fun _ _ => False)
        (fun (f : Failure) _ => ∃ text, f = .assertion .event text)
        (evaluate (.quiet answer) op.program w) := by
    intro s w op h hadmits
    apply Reentrant.ends_of_wp
      (Reentrant.quiet_obeys answer fun f : Failure => ∃ text, f = .assertion .event text)
    refine wp_operation_fails ?_ op h hasserts hadmits
    exact fun text _ => ⟨text, rfl⟩
  rw [← hadmits]
  obtain ⟨hall, w, hperform⟩ | ⟨⟨older, op, newer, hops, hnot⟩, f, ⟨text, rfl⟩, hperform⟩ :=
    Reentrant.simulates_or_fails (Reentrant.quiet_obeys answer fun _ : Failure => False) hstep
      (fun _ _ hfalse => hfalse) hfail ops represents_nil
  · refine iff_of_true (fun text hfails => ?_) hall
    rw [hperform] at hfails
    cases hfails
  · refine iff_of_false (fun hholds => hholds text hperform) fun hall => hnot ?_
    exact hall older op newer hops

def nameA : Name := ⟨bytes "a", by decide⟩
def nameB : Name := ⟨bytes "b", by decide⟩

/-- An identifier is removed under the wrong name. -/
def mismatched : List Operation :=
  [.subscribe nameA (some 0), .subscribe nameB (some 1),
    .unsubscribeId nameB 0]

theorem asserts_hold_matched : let _ : Build := debug
    ∀ text, performAll (.quiet accepting) Operation.program
      [.subscribe nameA (some 0), .unsubscribeId nameA 0]
      { state := {} } ≠ .error (.assertion .event text) := by
  intro _
  refine (asserts_hold_iff rfl accepting (fun _ _ _ => ⟨true, rfl⟩) _).mpr ⟨?_, ?_⟩
  · intro older name callback newer hops
    rcases older with _ | ⟨_, _ | ⟨_, older⟩⟩
    · exact List.not_mem_nil
    · cases hops
    · exact absurd (congrArg List.length hops) (by simp)
  · intro older name id newer hops
    rcases older with _ | ⟨_, _ | ⟨_, older⟩⟩
    · cases hops
    · cases hops
      exact fun _ hid => hid
    · exact absurd (congrArg List.length hops) (by simp)

theorem asserts_fail_mismatched : let _ : Build := debug
    ¬∀ answer : Replies, (∀ w m buffer, ∃ sent, answer w (.wsSend m buffer) = .ok sent) →
      ∀ ops text, performAll (.quiet answer) Operation.program ops { state := {} } ≠
        .error (.assertion .event text) := by
  intro _ hclaim
  exact hclaim accepting (fun _ _ _ => ⟨true, rfl⟩) mismatched _ rfl

end Event
end Deepstream
