import FlightApps.Leop.Shared

/-!
# Both tasks, and what they agree on

A `Pact` is an invariant that both tasks keep, with what each promises the other besides.  If the
programs of both tasks keep the pact, the invariant holds in every run (`Pact.run`).

What is proved of the child task is often about a few things that it has done, which a `Watch`
notes; it does not hear the other task.
-/

set_option autoImplicit false

namespace FlightApps
namespace Leop

open Program (Terms Assertion Change Stable Triple)

/-! ## What is noted of the history -/

/-- What is noted of all that has happened, but for the events of the task of the commands. -/
structure Watch (γ : Type) where
  init : γ
  note : γ → Event → γ
  deaf : ∀ g e, e.ofCommand = true → note g e = g

section Watch

variable {γ : Type} (W : Watch γ)

def Watch.of (h : List Event) : γ := h.foldl W.note W.init

@[simp] theorem Watch.of_nil : W.of [] = W.init := rfl

@[simp] theorem Watch.of_snoc (h : List Event) (e : Event) :
    W.of (h ++ [e]) = W.note (W.of h) e := by
  rw [Watch.of, List.foldl_append]
  rfl

theorem Watch.of_command {h es : List Event} (hes : ∀ e ∈ es, e.ofCommand = true) :
    W.of (h ++ es) = W.of h := by
  induction es generalizing h with
  | nil => rw [List.append_nil]
  | cons e es ih =>
    rw [List.append_cons, ih fun e' he' => hes e' (List.mem_cons_of_mem e he'), W.of_snoc,
      W.deaf _ _ (hes e List.mem_cons_self)]

end Watch

/-! ## Pacts -/

/-- What both tasks keep, and what each promises the other. -/
structure Pact where
  kept : Assertion State Event
  byProcess : Change State Event
  byCommand : Change State Event

/-- What is scheduled meets a condition on the inputs of each task. -/
def Agreed (okP okC : State → List Event → Input → Prop) (s : State) (h : List Event) :
    Program.Sched Task Input → Prop
  | .step .process i => okP s h i
  | .step .command i => okC s h i
  | .restart _ => True

instance (okP okC : State → List Event → Input → Prop) [∀ s h i, Decidable (okP s h i)]
    [∀ s h i, Decidable (okC s h i)] (s : State) (h : List Event)
    (x : Program.Sched Task Input) : Decidable (Agreed okP okC s h x) :=
  match x with
  | .step .process i => inferInstanceAs (Decidable (okP s h i))
  | .step .command i => inferInstanceAs (Decidable (okC s h i))
  | .restart _ => .isTrue trivial

namespace Pact

variable (K : Pact) (ok okP okC : State → List Event → Input → Prop)

def process : Terms State Input Event where
  input := ok
  rely s h s' h' := CommandMove s h s' h' ∧ K.byCommand s h s' h' ∧ K.kept s' h'
  guarantee s h s' h' := ProcessMove s s' ∧ K.byProcess s h s' h' ∧ K.kept s' h'

def command : Terms State Input Event where
  input := ok
  rely s h s' h' := ProcessMove s s' ∧ K.byProcess s h s' h' ∧ K.kept s' h'
  guarantee s h s' h' := CommandMove s h s' h' ∧ K.byCommand s h s' h' ∧ K.kept s' h'

def terms : Task → Terms State Input Event
  | .process => K.process okP
  | .command => K.command okC

/-- The invariant, and more. -/
def And (p : Assertion State Event) : Assertion State Event := fun s h => K.kept s h ∧ p s h

variable {K ok okP okC} {p q : Assertion State Event}

theorem stable_process (hp : ∀ s h s' h', K.kept s h → p s h → CommandMove s h s' h' →
    K.byCommand s h s' h' → K.kept s' h' → p s' h') : Stable (K.process ok) (K.And p) :=
  fun s h s' h' ha hr => ⟨hr.2.2, hp s h s' h' ha.1 ha.2 hr.1 hr.2.1 hr.2.2⟩

theorem stable_command (hp : ∀ s h s' h', K.kept s h → p s h → ProcessMove s s' →
    K.byProcess s h s' h' → K.kept s' h' → p s' h') : Stable (K.command ok) (K.And p) :=
  fun s h s' h' ha hr => ⟨hr.2.2, hp s h s' h' ha.1 ha.2 hr.1 hr.2.1 hr.2.2⟩

/-- **Runs**: the invariant holds at all times. -/
theorem run {detumble : Bool} {disk : Disk} {xs : List (Program.Sched Task Input)}
    (hprocess : Triple (K.process okP) (K.And p) (Leop.process detumble) (fun _ _ => True)
      (fun _ _ => True) fun _ _ => True)
    (hcommand : Triple (K.command okC) (K.And q) commandTask (fun _ _ => True)
      (fun _ _ => True) fun _ _ => True)
    (hstart : K.kept (State.start disk) [] ∧ p (State.start disk) [] ∧ q (State.start disk) [])
    (hrestart : ∀ s h current s', K.kept s h → s' = State.start (s.files.disk.cut current) →
      K.kept s' (h ++ [.booted]) ∧ p s' (h ++ [.booted]) ∧ q s' (h ++ [.booted]))
    (hxs : (leop detumble).Meets (Agreed okP okC) (State.start disk) xs) :
    K.kept (after detumble disk xs) (events detumble disk xs) := by
  refine Program.System.invariant (S := leop detumble) (I := K.kept) (K.terms okP okC)
    (fun t s h => match t with
      | .process => K.And p s h
      | .command => K.And q s h) ?_ ?_ ?_ ?_ hstart.1 ?_ xs hxs
  · intro t s h i _ hok
    cases t with
    | process => exact hok
    | command => exact hok
  · intro t
    cases t with
    | process => exact hprocess
    | command => exact hcommand
  · intro t s h s' h' _ hguar
    cases t with
    | process =>
      refine ⟨hguar.2.2, fun t' ht' => ?_⟩
      cases t' with
      | process => exact absurd rfl ht'
      | command => exact hguar
    | command =>
      refine ⟨hguar.2.2, fun t' ht' => ?_⟩
      cases t' with
      | process => exact hguar
      | command => exact absurd rfl ht'
  · intro s h i hkept _
    obtain ⟨hkept', hp, hq⟩ := hrestart s h _ _ hkept rfl
    refine ⟨hkept', fun t => ?_⟩
    cases t with
    | process => exact ⟨hkept', hp⟩
    | command => exact ⟨hkept', hq⟩
  · intro t
    cases t with
    | process => exact ⟨hstart.1, hstart.2.1⟩
    | command => exact ⟨hstart.1, hstart.2.2⟩

end Pact

end Leop
end FlightApps
