import Deepstream.Client.Facade
import Deepstream.Client.Objects
import Deepstream.Reentrant.Nested

/-!
Clients whose callbacks are the lambdas of the facade.

A call of such a lambda decodes its data and invokes a function of the user, or
throws. Everything else the environment is asked is answered at once.
-/

namespace Deepstream

open Reentrant (Conduct answering determined wp)

/-- What the functions of a client were made from: the call of `login`, or the function that
was given to `EventWrapper::subscribe` -/
structure Wrappers [JsonLibrary] where
  login : Nat → Login
  subscriber : Nat → Function

namespace Wrappers
variable [JsonLibrary] (made : Wrappers) (user : World → Nat → Json → World)

/-- What a call comes to, if it is the call of a lambda -/
def outcome : Call → Option (Except Exception Invocation)
  | .loginCallback f data => some ((made.login f).core.callback data).2
  | .subscribeFn f data => some (coreCallback (made.subscriber f) data).2
  | _ => none

/-- What the functions of users were invoked with, newest first -/
def invocations (t : List Item) : List Invocation :=
  t.filterMap fun
    | .call c => made.outcome c >>= Except.toOption
    | _ => none

/-- The world that a call leaves -/
def duringCall (w : World) (c : Call) : World :=
  match made.outcome c with
  | some (.ok i) => user w i.function i.data
  | _ => w

/-- A lambda throws what decoding or invoking throws; a message is accepted. -/
def answer : Replies
  | _, .loginCallback f data => ((made.login f).core.callback data).2.map fun _ => ()
  | _, .subscribeFn f data => (coreCallback (made.subscriber f) data).2.map fun _ => ()
  | w, c => accepting w c

def conduct : Conduct interface :=
  .happening (fun w c => .ok (made.duringCall user w c)) made.answer

/-- The functions of users may use the client, but leave a part of it as it is, and no function
of a user is invoked meanwhile. -/
structure Courteous {α : Type} (kept : Client → α) : Prop where
  during : ∀ w f data, Reentrant.World.During w (user w f data)
  kept : ∀ w f data, kept (user w f data).state = kept w.state
  invocations : ∀ w f data,
    made.invocations (user w f data).trace = made.invocations w.trace

variable {made user}

theorem invocations_call {c : Call} {i : Invocation} (h : made.outcome c = some (.ok i))
    (t : List Item) : made.invocations (.call c :: t) = i :: made.invocations t := by
  unfold invocations
  rw [List.filterMap_cons]
  dsimp only
  rw [h]
  rfl

theorem duringCall_of {c : Call} {i : Invocation} (h : made.outcome c = some (.ok i)) (w : World) :
    made.duringCall user w c = user w i.function i.data := by
  unfold duringCall
  rw [h]

theorem Courteous.during_duringCall {α : Type} {kept : Client → α}
    (h : made.Courteous user kept) (w : World) (c : Call) (w' : World)
    (hw' : (Except.ok (made.duringCall user w c) : Except Failure World) = .ok w') :
    Reentrant.World.During w w' := by
  cases hw'
  unfold duringCall
  split
  · exact h.during _ _ _
  · exact .refl w

/-- Functions of users that do nothing -/
theorem courteous_idle {α : Type} (made : Wrappers) (kept : Client → α) :
    made.Courteous (fun w _ _ => w) kept :=
  ⟨fun w _ _ => .refl w, fun _ _ _ => rfl, fun _ _ _ => rfl⟩

/-- The contract of this environment, with a condition under which a program may fail -/
abbrev contract (made : Wrappers) (user : World → Nat → Json → World) (bad : Prop) :
    Reentrant.Contract interface :=
  determined (fun w c => .ok (made.duringCall user w c)) fun _ => bad

theorem Courteous.obeys {α : Type} {kept : Client → α} (h : made.Courteous user kept)
    (bad : Prop) : (made.conduct user).Obeys (made.contract user bad) (answering made.answer) :=
  Reentrant.happening_obeys h.during_duringCall _

end Wrappers
end Deepstream
