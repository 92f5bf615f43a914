import Deepstream.Client.Poco
import Deepstream.Connected

/-!
The client and its handler of websockets, run together.

A run is made of moves of the application and of the network. Seen from the
client it is a run with a socket that keeps to its rules, so whatever holds of
the client with such a socket holds of the two of them.
-/

namespace Deepstream

open Reentrant (Joint)

/-- The members of `Deepstream` that talk to the server: `client_` and `wsh_` -/
abbrev LinkedClient [Build] [PocoLibrary] :=
  Joint (I := interface) Poco.server

/-- A client and its handler in a run, from their construction on -/
abbrev LinkedReaches [Build] [PocoLibrary] (n : Nat) (uri : Buffer) (j : LinkedClient) : Prop :=
  Joint.Reachable (I := interface) (S := Poco.server) (program n) (.construct uri) {}
    Poco.construct j

/-- The socket opens and a challenge is received, whose response is about to be sent. -/
def challengedMoves : List (Joint.Move (@Poco.server release plainLibrary)) :=
  [.serve {}, .serve {}, .serve {}, .resume,
    .task { received := [.frame (fromHumanReadable (bytes "C|CH+")) 0x81] } .processMessages,
    .serve {}]

def challengedClient : @LinkedClient release plainLibrary :=
  Joint.after (@program release 9)
    (Joint.start (@program release 9) (.construct (bytes "ws://a")) {}
      (@Poco.construct plainLibrary)) challengedMoves

theorem challengedClient_reaches :
    @LinkedReaches release plainLibrary 9 (bytes "ws://a") challengedClient :=
  Joint.Reachable.start.after _ (by decide +kernel)

theorem linked_of_reaches [Build] [PocoLibrary] {n : Nat} {uri : Buffer} {j : LinkedClient}
    (h : LinkedReaches n uri j) : Joint.Linked (I := interface) (S := Poco.server) pocoSocket
      (program n) (.construct uri) {} Poco.Related (· ≠ Poco.Fault.nullPointer) j := by
  have : Nonempty interface.Exception := ⟨.badFunctionCall⟩
  apply h.linked Poco.follows
  refine ⟨?_, fun hstate => nomatch hstate⟩
  exact iff_of_false (fun hstate => nomatch hstate) Bool.false_ne_true

/-- In every run of a client and its handler, the client runs as with a socket that keeps to the
rules, and the handler knows whether the socket is open. -/
theorem linkedClient_refines [Build] [PocoLibrary] (n : Nat) (uri : Buffer) (j : LinkedClient)
    (h : LinkedReaches n uri j) : Reaches pocoSocket n uri j.component ∧
      (j.fault = none → (j.server.state = .open ↔ socketOpen j.component.world.trace = true)) := by
  have hlinked := linked_of_reaches h
  exact ⟨hlinked.reachable, fun hfault => (hlinked.running hfault).relates.opened⟩

theorem linkedClient_refines_challenged : challengedClient.fault = none ∧
    challengedClient.server.state = .open ∧
    @Reaches release pocoSocket 9 (bytes "ws://a") challengedClient.component ∧
    (challengedClient.fault = none → (challengedClient.server.state = .open ↔
      socketOpen challengedClient.component.world.trace = true)) :=
  ⟨by decide +kernel, by decide +kernel,
    @linkedClient_refines release plainLibrary 9 _ _ challengedClient_reaches⟩

/-- No method of the handler dereferences `websocket_` while it is null. -/
theorem linkedClient_not_null [Build] [PocoLibrary] (n : Nat) (uri : Buffer) (j : LinkedClient)
    (h : LinkedReaches n uri j) : j.fault ≠ some Poco.Fault.nullPointer ∧
      (j.fault = none → j.server.state = .open → j.server.websocket ≠ none) := by
  have hlinked := linked_of_reaches h
  refine ⟨fun hfault => hlinked.failed _ hfault rfl, ?_⟩
  exact fun hfault => (hlinked.running hfault).relates.websocket

theorem linkedClient_not_null_challenged :
    challengedClient.fault ≠ some Poco.Fault.nullPointer ∧
      (challengedClient.fault = none → challengedClient.server.state = .open →
        challengedClient.server.websocket ≠ none) :=
  @linkedClient_not_null release plainLibrary 9 _ _ challengedClient_reaches

/-- Whenever the client waits for a call to return, a connection that is opening or open has a
handler in `OPEN`. -/
theorem linkedClient_connected [Build] [PocoLibrary] (n : Nat) (uri : Buffer) (j : LinkedClient)
    (h : LinkedReaches n uri j) (hserver : j.fault = none) (hclient : j.component.fault = none)
    (halive : j.component.world.state.state.IsAlive) : j.server.state = .open := by
  have hlinked := linked_of_reaches h
  apply (hlinked.running hserver).relates.opened.mpr
  exact (connected_of_reaches hlinked.reachable hclient).alive halive

theorem linkedClient_connected_challenged :
    challengedClient.component.world.state.state = .challengingWait ∧
      challengedClient.server.state = .open :=
  ⟨by decide +kernel, @linkedClient_connected release plainLibrary 9 _ _ challengedClient_reaches
    (by decide +kernel) (by decide +kernel) (by decide +kernel)⟩

/-- When the handler is about to send a message other than a heartbeat it is `OPEN`. -/
theorem linkedClient_sends [Build] [PocoLibrary] (n : Nat) (uri : Buffer) (j : LinkedClient)
    (h : LinkedReaches n uri j) (hturn : j.turn = .serving) (m : MessageBuilder)
    (buffer : Buffer) (hsend : innermost j.component.world = some (.wsSend m buffer)) :
    m.IsPong ∨ j.server.state = .open := by
  have hlinked := linked_of_reaches h
  obtain ⟨f, frames, hwaits, hserves⟩ := Joint.waits_of_serving hturn
  have hrunning := hlinked.running hwaits.fault
  obtain ⟨t, ht⟩ := hrunning.just_called hwaits hserves
  have hcall : f.call = .wsSend m buffer := by
    have hinnermost :=
      innermost_of_inCall (hlinked.reachable.inCall hwaits.component hwaits.top)
    rw [hsend] at hinnermost
    exact (Option.some.inj hinnermost).symm
  have hhanded := (connected_of_reaches hlinked.reachable hwaits.component).handed
  have hopened := hrunning.relates.opened
  rw [ht, hcall] at hhanded hopened
  exact hhanded.1.imp_right hopened.mpr

/-- `C|CHR` -/
abbrev challengeResponse : MessageBuilder where
  header := { topic := .connection, action := .challengeResponse }
  arguments := [bytes "ws://a"]
  arguments_clean := by decide

theorem linkedClient_sends_challenged :
    innermost challengedClient.component.world = some (.wsSend challengeResponse
      (fromHumanReadable (bytes "C|CHR|ws://a+"))) ∧
    (challengeResponse.IsPong ∨ challengedClient.server.state = .open) :=
  ⟨rfl, @linkedClient_sends release plainLibrary 9 _ _ challengedClient_reaches
    (by decide +kernel) challengeResponse _ rfl⟩

end Deepstream
