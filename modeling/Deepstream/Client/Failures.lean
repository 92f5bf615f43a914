import Deepstream.Client.Rules
import Deepstream.ParserCorrect
import Deepstream.Reentrant.Raising

/-!
How the programs of a client fail.

Assertions can fail, a null pointer can be read, an iterator may have become
invalid, and a callback may be empty. What a program does with the arguments of
a message it was given is within their bounds.
-/

namespace Deepstream

open Program (modifyEvent modifyPresence)
open Reentrant (Prog)

/-- Failures that have nothing to do with the arguments of messages are permitted. -/
structure Tolerant (A : Failure → Prop) : Prop where
  assertion : ∀ file text, file ≠ .messageProxy → A (.assertion file text)
  undefined : A .undefined
  exhausted : A .exhausted
  thrown : ∀ x, (∀ what, x ≠ .invalidArgument what) → A (.thrown x)

/-- A computation fails only as is permitted. -/
def FailsIn (A : Failure → Prop) {α : Type} (x : Except Failure α) : Prop :=
  ∀ f, x = .error f → A f

/-- A program fails only as is permitted, and raises only what is. -/
abbrev Confined (A : Failure → Prop) {α : Type} (p : Program α) : Prop :=
  p.Only (fun x => A (.thrown x)) A

section Computations
variable {A : Failure → Prop} {α β : Type}

theorem failsIn_ok (a : α) : FailsIn A (.ok a) := by
  rintro f ⟨⟩

theorem failsIn_error {f : Failure} (h : A f) : FailsIn A (.error f : Except Failure α) := by
  rintro _ ⟨⟩
  exact h

theorem failsIn_bind {x : Except Failure α} {next : α → Except Failure β} (hx : FailsIn A x)
    (hnext : ∀ a, FailsIn A (next a)) : FailsIn A (x >>= next) := by
  cases x with
  | ok a => exact hnext a
  | error f =>
      rintro _ ⟨⟩
      exact hx f rfl

variable [Build] (hA : Tolerant A)
include hA

theorem Tolerant.onlyAsserts {x : Except Failure α} (hx : OnlyAsserts x) : FailsIn A x := by
  intro f hf
  obtain ⟨-, file, text, rfl, hfile⟩ := hx f hf
  exact hA.assertion file text hfile

theorem Tolerant.check {file : SourceFile} (hfile : file ≠ .messageProxy) (text : String)
    (cond : Prop) [Decidable cond] : FailsIn A (check file text cond) :=
  hA.onlyAsserts (onlyAsserts_check text cond hfile)

theorem Tolerant.headerText (h : Header) : FailsIn A h.text := by
  apply failsIn_bind (hA.onlyAsserts (onlyAsserts_toString h))
  intro text
  cases text with
  | some text => exact failsIn_ok _
  | none => exact failsIn_error hA.undefined

theorem Tolerant.reportText (r : Report) : FailsIn A r.text := by
  have hheader : ∀ (h : Header) (next : Buffer → Buffer),
      FailsIn A (h.text >>= fun text => (.ok (next text) : Except Failure Buffer)) :=
    fun h next => failsIn_bind (hA.headerText h) fun _ => failsIn_ok _
  cases r with
  | unsolicited h => exact hheader h _
  | connectionErrorState previous h => exact hheader h _
  | unknownConnectionAction s h => exact hheader h _
  | unknownAuthenticationAction s h => exact hheader h _
  | _ => exact failsIn_ok _

theorem Tolerant.toBinary (m : MessageBuilder) : FailsIn A m.toBinary := by
  apply failsIn_bind
  · apply failsIn_bind
    · apply failsIn_bind (hA.onlyAsserts (onlyAsserts_toString _))
      intro text
      cases text with
      | some text => exact failsIn_ok _
      | none => exact failsIn_error hA.undefined
    · exact fun _ => failsIn_ok _
  · intro size
    split
    · exact failsIn_error (hA.thrown _ fun _ => by rintro ⟨⟩)
    · apply failsIn_bind
      · apply failsIn_bind (hA.onlyAsserts (onlyAsserts_toString _))
        intro text
        cases text with
        | some text => exact failsIn_ok _
        | none => exact failsIn_error hA.undefined
      · intro binHeader
        dsimp only
        split
        · exact failsIn_error hA.undefined
        · exact failsIn_bind (hA.check (by decide) _ _) fun _ => failsIn_ok _

end Computations

section Programs
variable {A : Failure → Prop} {α : Type}

theorem confined_lift {x : Except Failure α} (hx : FailsIn A x) : Confined A (Program.lift x) := by
  unfold Program.lift
  split
  · trivial
  · exact hx _ rfl
  · exact hx _ rfl

theorem confined_ignore {p : Program Bool} (h : Confined A p) : Confined A (Program.ignore p) :=
  Reentrant.only_bind h fun _ => Reentrant.only_pure _

theorem confined_nextId : Confined A Program.nextId :=
  Reentrant.only_read_bind fun _ =>
    Reentrant.only_bind (Reentrant.only_modify _) fun _ => Reentrant.only_pure _

theorem confined_modifyEvent (f : Event → Event) : Confined A (modifyEvent f) :=
  Reentrant.only_modify _

theorem confined_modifyPresence (f : Presence → Presence) : Confined A (modifyPresence f) :=
  Reentrant.only_modify _

variable (hA : Tolerant A)
include hA

theorem Tolerant.invoke (f : Function) (call : Nat → Program α) (h : ∀ f, Confined A (call f)) :
    Confined A (Program.invoke f call) := by
  unfold Program.invoke
  split
  · exact h _
  · exact hA.thrown _ fun _ => by rintro ⟨⟩

omit hA in
/-- A message is built whose arguments can be refused. -/
theorem confined_build (hrefused : ∀ what, A (.thrown (.invalidArgument what))) (topic : Topic)
    (action : Action) {arguments : List Buffer} (hlen : arguments.length ≤ 2) :
    Confined A (Program.build topic action arguments) := by
  have hcases := MessageBuilder.addArguments_cases (.ofHeader { topic, action }) arguments
    (by simpa [MessageBuilder.ofHeader] using hlen.trans (by decide))
  unfold Program.build
  split
  · exact Reentrant.only_pure _
  · next f h =>
      cases hcases with
      | inl hclean =>
          obtain ⟨-, m, hm⟩ := hclean
          rw [hm] at h
          cases h
      | inr hbad =>
          rw [hbad.2] at h
          cases h
          exact hrefused _

variable [Build]

theorem Tolerant.assert {file : SourceFile} (hfile : file ≠ .messageProxy) (text : String)
    (cond : Prop) {_ : Decidable cond} : Confined A (Program.assert file text cond) :=
  confined_lift (hA.check hfile text cond)

theorem Tolerant.report (r : Report) : Confined A (Program.report r) :=
  Reentrant.only_bind (confined_lift (hA.reportText r)) fun _ => Reentrant.only_ask _

theorem Tolerant.debugMsg (h : Header) : Confined A (Connection.debugMsg h) :=
  Reentrant.only_when fun _ =>
    Reentrant.only_bind (confined_lift (hA.headerText h)) fun _ => Reentrant.only_pure _

theorem Tolerant.transmit (m : MessageBuilder) : Confined A (Connection.transmit m) :=
  Reentrant.only_bind (confined_lift (hA.toBinary m)) fun _ => Reentrant.only_ask _

/-- An event is sent or not. -/
theorem Tolerant.send_event {m : MessageBuilder} (hm : m.header.topic = .event) (n : Nat) :
    Confined A (Connection.send n m) := by
  unfold Connection.send Connection.sendWith
  apply Reentrant.only_bind (Reentrant.only_leave _)
  intro _
  apply Reentrant.only_bind (hA.debugMsg _)
  intro _
  apply Reentrant.only_read_bind
  intro c
  rw [if_neg]
  · split
    · exact hA.transmit m
    · exact Reentrant.only_pure _
  · rw [hm]
    decide

end Programs

end Deepstream
