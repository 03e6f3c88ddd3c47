import ObjectLink.Core.Decode

/-!
# What the result of the decoder says

`Protocol::handleMessage` returns "true if message translation was successful and a proper listener
handler was called, false otherwise" (`protocol.h:182`). In the build with exceptions its `try`
block spans the calls of the handlers (`protocol.cpp:90-181`), so an exception of the JSON library
that a handler throws gives `false` too, and is called a "message parse error". The catch of
`BaseNode::handleMessage` for such exceptions (`basenode.cpp:82-84`) never sees one.

Results:
* `noting`: a listener that notes each call next to what the listener it stands for does.
* `handleMessage_noting`: the calls of one message, noted.
* `resultTells_iff`: `false` comes without a call exactly if the handler throws no exception of the
  JSON library.
* `failing_setProperty`: a source that reads a value of the wrong type.
-/

namespace ObjectLink

namespace IProtocolListener

variable {σ : Type}

/-- A handler that is called and noted. -/
def note (L : IProtocolListener σ) (c : Call) : Handler (σ × List Call) := fun x =>
  ((L.run c x.1).1, (L.run c x.1).2, x.2 ++ [c])

/-- **The listener with a list of the calls it got** next to its own state. -/
def noting (L : IProtocolListener σ) : IProtocolListener (σ × List Call) where
  handleLink o := L.note (.link o)
  handleUnlink o := L.note (.unlink o)
  handleInit o props := L.note (.init o props)
  handleSetProperty p v := L.note (.setProperty p v)
  handlePropertyChange p v := L.note (.propertyChange p v)
  handleInvoke id m args := L.note (.invoke id m args)
  handleInvokeReply id m v := L.note (.invokeReply id m v)
  handleSignal n args := L.note (.signal n args)
  handleError t id text := L.note (.error t id text)

theorem noting_run (L : IProtocolListener σ) (c : Call) : L.noting.run c = L.note c := by
  cases c <;> rfl

end IProtocolListener

namespace Protocol

variable {σ : Type} (lib : JsonLibrary) (msg : Json) (L : IProtocolListener σ) (s : σ)

/-- What the handler a message stands for throws, if it throws an exception of the JSON library. -/
def JsonFailure (what : Bytes) : Prop :=
  ∃ c, decode? lib msg = some c ∧ (L.run c s).1 = .error (.json what)

/-- **The result says whether a handler was called**: `false` comes with no call noted. -/
def ResultTells : Prop :=
  ∀ before calls p, (handleMessage lib msg L.noting).run ⟨before, s, calls⟩ = (.ok false, p) →
    p.listener.2 = calls

variable {lib msg L s}

/-- A message that stands for a call has it noted, however the handler ends. -/
theorem handleMessage_noting {c : Call} (hc : decode? lib msg = some c) (before : Bytes)
    (calls : List Call) : (handleMessage lib msg L.noting).run ⟨before, s, calls⟩
      = afterCall ((L.run c s).1, (L.run c s).2, calls ++ [c]) := by
  rw [handleMessage_of_decode lib hc, IProtocolListener.noting_run]
  rfl

/-- **A failure of the handler** is reported as one of the decoder, with the call noted. -/
theorem handleMessage_jsonFailure {c : Call} {what : Bytes} (hc : decode? lib msg = some c)
    (hf : (L.run c s).1 = .error (.json what)) (before : Bytes) (calls : List Call) :
    (handleMessage lib msg L.noting).run ⟨before, s, calls⟩ =
      (.ok false, ⟨lit "message parse error: " ++ what, (L.run c s).2, calls ++ [c]⟩) := by
  rw [handleMessage_noting hc, hf]
  rfl

/-- Any other end of the handler is told apart from an error of the decoder. -/
theorem afterCall_ne_false {τ : Type} {r : Except Thrown Unit} {t : τ}
    (hr : ∀ what, r ≠ .error (.json what)) (p : ProtocolState τ) :
    afterCall (r, t) ≠ (.ok false, p) := by
  intro h
  match r, hr with
  | .ok _, _ => cases h
  | .error (.json what), hr => exact hr what rfl
  | .error (.std _), _ => cases h
  | .error .other, _ => cases h

variable (lib msg L s)

/-- **The result says whether a handler was called** exactly if the handler the message stands for,
if there is one, does not throw an exception of the JSON library. Where it does, its failure is
reported as "message parse error", although it was called and what it did before is done. -/
theorem resultTells_iff :
    (ResultTells lib msg L s ↔ ∀ what, ¬ JsonFailure lib msg L s what) ∧
    ∀ what, JsonFailure lib msg L s what → ∃ c, decode? lib msg = some c ∧
      ∀ before calls, (handleMessage lib msg L.noting).run ⟨before, s, calls⟩ =
        (.ok false, ⟨lit "message parse error: " ++ what, (L.run c s).2, calls ++ [c]⟩) := by
  refine ⟨⟨?_, ?_⟩, ?_⟩
  · rintro htells what ⟨c, hc, hf⟩
    have hcalls := htells [] [] _ (handleMessage_jsonFailure hc hf [] [])
    cases hcalls
  · intro hno before calls p hrun
    cases hd : decode? lib msg with
    | some c =>
      rw [handleMessage_noting hd] at hrun
      exact absurd hrun (afterCall_ne_false (fun what hf => hno what ⟨c, hd, hf⟩) p)
    | none =>
      obtain ⟨text, -, hreject⟩ := handleMessage_of_reject lib hd L.noting ⟨before, s, calls⟩
      rw [hreject] at hrun
      cases hrun
      rfl
  · rintro what ⟨c, hc, hf⟩
    exact ⟨c, hc, handleMessage_jsonFailure hc hf⟩

/-- A listener whose properties are numbers: it throws the exception of `get<int>()` for any other
value, and keeps the value it was set to. -/
def numbersOnly : IProtocolListener Json where
  handleLink _ s := (.ok (), s)
  handleUnlink _ s := (.ok (), s)
  handleInit _ _ s := (.ok (), s)
  handleSetProperty _ value s :=
    match JsonLibrary.truncating.getInt value with
    | .ok _ => (.ok (), value)
    | .error e => (.error e, s)
  handlePropertyChange _ _ s := (.ok (), s)
  handleInvoke _ _ _ s := (.ok (), s)
  handleInvokeReply _ _ _ s := (.ok (), s)
  handleSignal _ _ s := (.ok (), s)
  handleError _ _ _ s := (.ok (), s)

/-- **A value of the wrong type**: the handler was called, and the result is `false`. -/
theorem failing_setProperty :
    ¬ ∀ (msg : Json) (σ : Type) (L : IProtocolListener σ) (s : σ),
      ResultTells .truncating msg L s := by
  intro hall
  have hdec : decode? .truncating (setPropertyMessage (lit "demo.Calc/total") (.string [])) =
      some (.setProperty (lit "demo.Calc/total") (.string [])) :=
    decode?_composed .truncating (.setProperty (lit "demo.Calc/total") (.string []))
  have hrun := handleMessage_jsonFailure (L := numbersOnly) (s := Json.null) hdec rfl [] []
  have hcalls := hall _ _ numbersOnly .null [] [] _ hrun
  cases hcalls

end Protocol

end ObjectLink
