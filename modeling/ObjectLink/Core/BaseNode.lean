import ObjectLink.Core.Decode

/-!
# What both kinds of node share

Model of `BaseNode::handleMessage` (`basenode.cpp:56-94`) on a message that has been converted from
its network format: what the protocol dispatches to is the node itself, and an exception of the
JSON library or of the standard library that leaves the protocol ends there.

Of the log messages only this matters to the rest: one with a payload dumps it where the message is
logged (`types.h:200-214`), and that throws where a string is not UTF-8. `Logging` is what this
depends on; log functions are taken to return.

Results:
* `handleMessage_state`: receiving a message is calling the handler it stands for, or nothing.
-/

namespace ObjectLink

/-- What the log messages of a node depend on. -/
structure Logging where
  /-- Whether the node has a log function and logs this level. -/
  logs : LogLevel → Bool
  /-- `dump` of the JSON library. -/
  dump : Json → Except Thrown Unit

/-- `LoggerBase::emitLogWithPayload`: the payload is dumped only if the message is logged. -/
def Logging.emitLogWithPayload (env : Logging) (level : LogLevel) (payload : Json) :
    Except Thrown Unit :=
  if env.logs level then env.dump payload else .ok ()

namespace BaseNode

variable {σ : Type}

/-- `handleMessage`, for a node with the handlers `L`. -/
def handleMessage (lib : JsonLibrary) (L : IProtocolListener σ) (msg : Json) : Handler σ := fun s =>
  match (Protocol.handleMessage lib msg L).run ⟨[], s⟩ with
  | (.ok _, p) => (.ok (), p.listener)
  | (.error .other, p) => (.error .other, p.listener)
  | (.error _, p) => (.ok (), p.listener)

theorem afterCall_listener (r : Except Thrown Unit × σ) :
    (Protocol.afterCall r).2.listener = r.2 := by
  match r with
  | (.ok _, _) => rfl
  | (.error (.json _), _) => rfl
  | (.error (.std _), _) => rfl
  | (.error .other, _) => rfl

/-- **Receiving a message** has the effect of the handler call it stands for, whether or not the
handler throws, and none when it stands for none. -/
theorem handleMessage_state (lib : JsonLibrary) (L : IProtocolListener σ) (msg : Json) (s : σ) :
    (handleMessage lib L msg s).2 = match Protocol.decode? lib msg with
      | some c => (L.run c s).2
      | none => s := by
  have hstate : (handleMessage lib L msg s).2
      = ((Protocol.handleMessage lib msg L).run ⟨[], s⟩).2.listener := by
    unfold handleMessage
    split <;> rename_i h <;> rw [h]
  rw [hstate]
  cases hd : Protocol.decode? lib msg with
  | some c => rw [Protocol.handleMessage_of_decode lib hd, afterCall_listener]
  | none =>
    obtain ⟨text, -, hrun⟩ := Protocol.handleMessage_of_reject lib hd L ⟨[], s⟩
    rw [hrun]

end BaseNode

end ObjectLink
