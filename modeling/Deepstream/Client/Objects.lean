import Deepstream.Client.Rules
import Deepstream.Client.Runs
import Deepstream.Reentrant.Evaluation

/-!
`Event` and `Presence` as objects of their own.

Both are constructed with a function to send with. The tests pass one of their
own, and so does this module: it is given a message, not its bytes, and leaves
it to the environment whether the message was sent.
-/

namespace Deepstream

open Reentrant (answering undisturbed wp)

def mockSend (m : MessageBuilder) : Program Bool :=
  Program.ask (.wsSend m [])

/-- The answers to all calls, which may depend on everything that has happened. -/
abbrev Replies := World → (c : Call) → Except Exception c.Answer

/-- Every call returns, every message is sent, and nothing else happens. -/
def accepting : Replies
  | _, .idle => .error (.user 0)
  | _, .wsState => .ok .closed
  | _, .uri => .ok []
  | _, .wsSend _ _ => .ok true
  | _, .listenFn _ _ _ => .ok true
  | _, .errorHandler _ _ | _, .setUri _ | _, .wsOpen | _, .wsClose | _, .loginCallback _ _
  | _, .subscribeFn _ _ | _, .presenceFn _ _ _ | _, .queryFn _ _ => .ok ()

/-- The world after a call that was answered at once -/
def World.answered (w : World) (c : Call) (a : c.Answer) : World :=
  (Reentrant.World.calling w c).returned c (.ok a)

@[simp] theorem World.state_answered (w : World) (c : Call) (a : c.Answer) :
    (World.answered w c a).state = w.state :=
  rfl

theorem wp_mockSend {answer : Replies} {fault : Failure → Prop} {m : MessageBuilder} {sent : Bool}
    {Q : Bool → World → Prop} {E : Exception → World → Prop} {w : World}
    (h : answer (Reentrant.World.calling w (.wsSend m [])) (.wsSend m []) = .ok sent) :
    wp (undisturbed fault) (answering answer) (mockSend m) Q E w ↔
      Q sent (World.answered w (.wsSend m []) sent) :=
  Reentrant.wp_ask_answered h

/-- Sending returns, and nothing else happens meanwhile. -/
def Sends (C : Reentrant.Contract interface) (P : Reentrant.Policy interface) : Prop :=
  ∀ (m : MessageBuilder) (w : World) (Q : Bool → World → Prop) (E : Exception → World → Prop),
    (∀ sent, Q sent (World.answered w (.wsSend m []) sent)) → wp C P (mockSend m) Q E w

theorem sends_answering {answer : Replies} {fault : Failure → Prop}
    (hsends : ∀ w m buffer, ∃ sent, answer w (.wsSend m buffer) = .ok sent) :
    Sends (undisturbed fault) (answering answer) := by
  intro m w Q E hQ
  obtain ⟨sent, hsent⟩ := hsends (Reentrant.World.calling w (.wsSend m [])) m []
  rw [wp_mockSend hsent]
  exact hQ sent

/-- The callbacks of subscribers that were called, newest first -/
def called (w : World) : List Call :=
  w.trace.filterMap fun
    | .call (.subscribeFn f data) => some (.subscribeFn f data)
    | .call (.presenceFn f name online) => some (.presenceFn f name online)
    | _ => none

/-- No callback of a subscriber was called, and the other object is as it was. -/
structure Beside {α : Type} (other : Client → α) (w w' : World) : Prop where
  called : called w' = called w
  other : other w'.state = other w.state

namespace Beside
variable {α : Type} {other : Client → α}

theorem refl (w : World) : Beside other w w :=
  ⟨rfl, rfl⟩

theorem trans {w w₁ w' : World} (h : Beside other w w₁) (h' : Beside other w₁ w') :
    Beside other w w' :=
  ⟨h'.called.trans h.called, h'.other.trans h.other⟩

end Beside

section Sending
variable {C : Reentrant.Contract interface} {P : Reentrant.Policy interface} (hsends : Sends C P)
  {w : World} {Q : Unit → World → Prop} {E : Exception → World → Prop}
include hsends

theorem wp_mockSend_ignored {m : MessageBuilder}
    (hQ : ∀ w' : World, w'.state = w.state → handed w' = (m, []) :: handed w →
      called w' = called w → Q () w') :
    wp C P (Program.ignore (mockSend m)) Q E w := by
  rw [wp_ignore]
  exact hsends m w _ _ fun sent => hQ _ rfl rfl rfl

/-- A message without arguments is sent. -/
theorem wp_announcement {topic : Topic} {action : Action}
    (hQ : ∀ (message : Built topic action []) (w' : World), w'.state = w.state →
      handed w' = (message.val, []) :: handed w → called w' = called w → Q () w') :
    wp C P (Program.build topic action [] >>= fun message =>
      Program.ignore (mockSend message.val)) Q E w := by
  rw [Reentrant.wp_bind]
  apply wp_build
  · exact Nat.zero_le 2
  · exact fun _ message => wp_mockSend_ignored hsends (hQ message)
  · rintro ⟨_, hmem, -⟩
    cases hmem

end Sending

/-- Two things take turns in a list, newest first, of which one comes first. -/
def Alternates {α : Type} [DecidableEq α] (first second : α) : List α → Prop
  | [] => True
  | x :: older => x = (if older.head? = some first then second else first) ∧
      Alternates first second older

section Turns
variable {α : Type} [DecidableEq α] {first second : α} (hne : first ≠ second) (l : List α)
include hne

theorem alternates_cons_first :
    Alternates first second (first :: l) ↔
      l.head? ≠ some first ∧ Alternates first second l := by
  refine and_congr_left' ?_
  by_cases hhead : l.head? = some first
  · rw [if_pos hhead]
    exact iff_of_false hne (not_not_intro hhead)
  · rw [if_neg hhead]
    exact iff_of_true rfl hhead

theorem alternates_cons_second :
    Alternates first second (second :: l) ↔
      l.head? = some first ∧ Alternates first second l := by
  refine and_congr_left' ?_
  by_cases hhead : l.head? = some first
  · rw [if_pos hhead]
    exact iff_of_true rfl hhead
  · rw [if_neg hhead]
    exact iff_of_false hne.symm hhead

end Turns

end Deepstream
