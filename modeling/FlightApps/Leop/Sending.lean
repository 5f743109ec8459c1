import FlightApps.Leop.Waiting

/-!
# Sending a command

The three functions that send a command are one: the message is initialised, gets its function code
and is transmitted, and the first call that fails ends the function.  `SendOutline` is what a proof
has to say about it, with `P` before, `P₁` while the command is being issued and `Q` afterwards.
-/

set_option autoImplicit false

namespace FlightApps
namespace Leop

open Program (Terms Assertion Stable Triple)

/-- How the functions that send a command go. -/
structure SendOutline (T : Terms State Input Event) (c : Command) (P P₁ Q : Assertion State Event) :
    Prop where
  stable : Stable T P
  stable_issuing : Stable T P₁
  stable_sent : Stable T Q
  others : ∀ s h s' h', T.rely s h s' h' → s'.locals = s.locals
  issues : ∀ s h, P s h →
    T.guarantee s h s (h ++ [.issuing c]) ∧ P₁ s (h ++ [.issuing c])
  goesOn : ∀ s h i, P₁ s h → T.input s h i → i.status = success →
    T.guarantee s h (s.returns i.status) h ∧ P₁ (s.returns i.status) h
  fails : ∀ s h i, P₁ s h → T.input s h i → i.status ≠ success →
    T.guarantee s h (s.returns i.status) h ∧ Q (s.returns i.status) h
  sends : ∀ s h i, P₁ s h → T.input s h i →
    T.guarantee s h (s.returns i.status) (h ++ [.sent c i.status]) ∧
    Q (s.returns i.status) (h ++ [.sent c i.status])

namespace SendOutline

variable {T : Terms State Input Event} {c : Command} {P P₁ Q X Y : Assertion State Event}
  (o : SendOutline T c P P₁ Q)

include o

/-- A call, and the end of the function if it fails. -/
theorem call_triple (d : Prog) (hd : Triple T P₁ d Q Q Q) :
    Triple T P₁ (.seq (.does fun s i => (s.returns i.status, []))
      (.seq (.when State.failed .ret) d)) Q Q Q := by
  refine .seq (M := fun s h => (s.failed = false ∧ P₁ s h) ∨ (s.failed = true ∧ Q s h))
    (.does o.stable_issuing fun s h i hp hi => ?_) <|
    .seq (M := P₁) (.when (M := Q) ?_ o.stable_issuing ?_ ?_ (.ret o.stable_sent)) hd
  · rw [List.append_nil]
    by_cases hst : i.status = success
    · obtain ⟨hguar, hkept⟩ := o.goesOn s h i hp hi hst
      exact ⟨hguar, Or.inl ⟨decide_eq_false (not_not.2 hst), hkept⟩⟩
    · obtain ⟨hguar, hkept⟩ := o.fails s h i hp hi hst
      exact ⟨hguar, Or.inr ⟨decide_eq_true hst, hkept⟩⟩
  · rintro s h s' h' (⟨hok, hp⟩ | ⟨hfail, hq⟩) hr
    · exact Or.inl ⟨by rw [State.failed, o.others s h s' h' hr]; exact hok,
        o.stable_issuing _ _ _ _ hp hr⟩
    · exact Or.inr ⟨by rw [State.failed, o.others s h s' h' hr]; exact hfail,
        o.stable_sent _ _ _ _ hq hr⟩
  · rintro s h (⟨hok, -⟩ | ⟨-, hq⟩) hb
    · rw [hok] at hb
      exact absurd hb Bool.false_ne_true
    · exact hq
  · rintro s h (⟨-, hp⟩ | ⟨hfail, -⟩) hb
    · exact hp
    · rw [hfail] at hb
      exact absurd hb.symm Bool.false_ne_true

/-- **Sending a command.** -/
theorem triple : Triple T P (sendCommand c) Q X Y :=
  .call o.stable_sent <| .seq (M := P₁) (.emit o.stable o.issues) <|
    o.call_triple _ <| o.call_triple _ <| .does o.stable_issuing o.sends

end SendOutline

/-- Sending a command, where every action keeps an assertion. -/
theorem send_const {T : Terms State Input Event} {c : Command} {P X Y : Assertion State Event}
    (stable : Stable T P) (others : ∀ s h s' h', T.rely s h s' h' → s'.locals = s.locals)
    (issues : ∀ s h, P s h → T.guarantee s h s (h ++ [.issuing c]) ∧ P s (h ++ [.issuing c]))
    (returns : ∀ s h status, P s h →
      T.guarantee s h (s.returns status) h ∧ P (s.returns status) h)
    (sends : ∀ s h status, P s h →
      T.guarantee s h (s.returns status) (h ++ [.sent c status]) ∧
      P (s.returns status) (h ++ [.sent c status])) : Triple T P (sendCommand c) P X Y := by
  have houtline : SendOutline T c P P P :=
    { stable, others, issues
      stable_issuing := stable
      stable_sent := stable
      goesOn := fun s h i hp _ _ => returns s h i.status hp
      fails := fun s h i hp _ _ => returns s h i.status hp
      sends := fun s h i hp _ => sends s h i.status hp }
  exact houtline.triple

end Leop
end FlightApps
