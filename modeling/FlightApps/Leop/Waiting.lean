import FlightApps.Leop.Saving

/-!
# Waiting

`WaitOutline` is what a proof about `MISSION_LEOP_Wait` has to say: which assertion holds when it is
called (`A`), when the elapsed time has been read (`B`), between the turns of the loop (`L`), after
a delay (`D`), when the flag has been found unset (`R`), when the elapsed time has been computed
(`C`), when the time is over (`F`), when the wait is left (`E`) and when the variables have been
cleared (`Z`).  None of them is about what only the housekeeping shows (`Calm`).
-/

set_option autoImplicit false

namespace FlightApps
namespace Leop

open Program (Terms Assertion Stable Triple)

/-- A change of what only the housekeeping shows, and of when to save next. -/
def Quiet (s s' : State) : Prop :=
  ∃ started remaining complete next, s' = { s with
    vars := { s.vars with
      processStarted := started
      waitRemainingSec := remaining
      waitComplete := complete }
    locals := { s.locals with nextSaveElapsedSec := next } }

/-- The assertion does not depend on that. -/
structure Calm (T : Terms State Input Event) (P : Assertion State Event) : Prop where
  stable : Stable T P
  quiet : ∀ s h s', P s h → Quiet s s' → T.guarantee s h s' h ∧ P s' h

/-- How `MISSION_LEOP_Wait` goes. -/
structure WaitOutline (T : Terms State Input Event) (w : UInt32)
    (A B L D R C F E Z : Assertion State Event) : Prop where
  calmA : Calm T A
  calmB : Calm T B
  calmL : Calm T L
  calmD : Calm T D
  calmR : Calm T R
  calmC : Calm T C
  calmF : Calm T F
  calmE : Calm T E
  calmZ : Calm T Z
  /-- The other task keeps its hands off the locals; all it does is to end the wait. -/
  others : ∀ s h s' h', T.rely s h s' h' → s'.locals = s.locals ∧
    (s'.vars.waitElapsedSec = s.vars.waitElapsedSec ∨ s'.vars.waitElapsedSec = 0) ∧
    (s.vars.completeRequested = true → s'.vars.completeRequested = true) ∧
    (s'.vars.waitComplete = s.vars.waitComplete ∨
      s'.vars.waitComplete = true ∧ s'.vars.completeRequested = true)
  testTop : ∀ s h, A s h → w ≠ 0 → ∀ s', s' = { s with
      locals := { s.locals with requested := s.vars.completeRequested } } →
    T.guarantee s h s' (h ++ [.tested .waitTop s.vars.completeRequested]) ∧
    A s' (h ++ [.tested .waitTop s.vars.completeRequested])
  leavesTop : ∀ s h, A s h →
    w = 0 ∨ s.locals.requested = true ∨ w ≤ s.vars.waitElapsedSec → E s h
  reads : ∀ s h, A s h → w ≠ 0 → s.locals.requested = false → s.vars.waitElapsedSec < w →
    ∀ s', s' = { s with locals := { s.locals with savedElapsedSec := s.vars.waitElapsedSec } } →
    T.guarantee s h s' h ∧ B s' h
  starts : ∀ s h i, B s h → T.input s h i →
    ∀ s', s' = { s with vars := { s.vars with startTime := i.now } } →
    T.guarantee s h s' (h ++ [.waiting w]) ∧ L s' (h ++ [.waiting w])
  delays : ∀ s h, L s h → T.guarantee s h s (h ++ [.delayed]) ∧ D s (h ++ [.delayed])
  testTick : ∀ s h b, D s h → s.vars.completeRequested = b →
    ∀ s', s' = { s with locals := { s.locals with requested := b } } →
    T.guarantee s h s' (h ++ [.tested .tick b]) ∧
    (b = true → E s' (h ++ [.tested .tick b])) ∧ (b = false → R s' (h ++ [.tested .tick b]))
  computes : ∀ s h i, R s h → T.input s h i → ∀ s', s' = { s with locals := { s.locals with
      totalElapsedSec :=
        s.locals.savedElapsedSec + (timeSubtract i.now s.vars.startTime).seconds } } →
    T.guarantee s h s' h ∧ C s' h
  fills : ∀ s h, C s h → w ≤ s.locals.totalElapsedSec →
    ∀ s', s' = { s with vars := { s.vars with waitElapsedSec := w } } →
    T.guarantee s h s' (h ++ [.wrote]) ∧ F s' (h ++ [.wrote])
  goesOn : ∀ s h, C s h → s.locals.totalElapsedSec < w →
    ∀ s', s' = { s with vars := { s.vars with waitElapsedSec := s.locals.totalElapsedSec } } →
    T.guarantee s h s' (h ++ [.wrote]) ∧ L s' (h ++ [.wrote])
  saveL : ∀ p, Stable T (fun s _ => p s.vars) → ∀ X Y,
    Triple T (Framed L p) (saveState .wait) (Framed L p) X Y
  saveF : ∀ p, Stable T (fun s _ => p s.vars) → ∀ X Y,
    Triple T (Framed F p) (saveState .wait) (Framed F p) X Y
  leavesLoop : ∀ s h, L s h → s.vars.completeRequested = true → E s h
  finishes : ∀ s h, F s h → E s h
  clears : ∀ s h, E s h → ∀ s', s' = { s with vars := { s.vars with waitElapsedSec := 0 } } →
    T.guarantee s h s' h ∧ Z s' h

/-- Only a request has ended the wait. -/
def Vars.Unfilled (v : Vars) : Prop := v.waitComplete = true → v.completeRequested = true

/-- The wait is over. -/
def Vars.Filled (v : Vars) : Prop := v.waitComplete = true

/-- Between the turns of the loop. -/
def Between (L F : Assertion State Event) : Assertion State Event := fun s h =>
  Framed F Vars.Filled s h ∨ Framed L Vars.Unfilled s h

section Calm

variable {T : Terms State Input Event} {P Q X Y : Assertion State Event} {p q : Vars → Prop}
  {f : State → State}

theorem Calm.set (hP : Calm T P) (hf : ∀ s, Quiet s (f s)) : Triple T P (.set f) P X Y :=
  .set hP.stable fun s h hp => hP.quiet s h (f s) hp (hf s)

theorem Calm.stable_framed (hP : Calm T P) (hp : Stable T fun s _ => p s.vars) :
    Stable T (Framed P p) := fun s h s' h' ha hr =>
  ⟨hP.stable s h s' h' ha.1 hr, hp s h s' h' ha.2 hr⟩

theorem Calm.set_framed (hP : Calm T P) (hp : Stable T fun s _ => p s.vars)
    (hf : ∀ s, Quiet s (f s)) (hq : ∀ s, p s.vars → q (f s).vars) :
    Triple T (Framed P p) (.set f) (Framed P q) X Y := by
  refine .set (hP.stable_framed hp) fun s h ha => ?_
  obtain ⟨hguar, hkept⟩ := hP.quiet s h (f s) ha.1 (hf s)
  exact ⟨hguar, hkept, hq s ha.2⟩

end Calm

namespace WaitOutline

variable {T : Terms State Input Event} {w : UInt32}
  {A B L D R C F E Z Q X Y : Assertion State Event}
  (o : WaitOutline T w A B L D R C F E Z)

include o

theorem stable_unfilled : Stable T fun s _ => s.vars.Unfilled := by
  intro s h s' h' hp hr hcomplete
  obtain ⟨-, -, hrequested, hsame | ⟨-, hreq⟩⟩ := o.others s h s' h' hr
  · exact hrequested (hp (hsame.symm.trans hcomplete))
  · exact hreq

theorem stable_filled : Stable T fun s _ => s.vars.Filled := by
  intro s h s' h' hp hr
  obtain ⟨-, -, -, hsame | ⟨hcomplete, -⟩⟩ := o.others s h s' h' hr
  · exact hsame.trans hp
  · exact hcomplete

theorem clear_triple : Triple T E clearWait Z X Y := by
  refine .seq (o.calmE.set fun s => ⟨_, _, _, _, rfl⟩) <|
    .seq (o.calmE.set fun s => ⟨_, _, _, _, rfl⟩) <|
    .seq (M := Z) (.set o.calmE.stable fun s h hp => o.clears s h hp _ rfl) <|
    o.calmZ.set fun s => ⟨_, _, _, _, rfl⟩

/-- The wait is left before it has begun. -/
theorem leave_triple : Triple T E (.block [clearWait, .ret]) Q X Z :=
  .seq o.clear_triple (.ret o.calmZ.stable)

/-- The time is over, or not yet. -/
theorem branch_triple : Triple T (Framed C Vars.Unfilled)
    (.ite (fun s => w ≤ s.locals.totalElapsedSec)
      (.block [
        setVars fun v => { v with waitComplete := true },
        write fun s => { s.vars with waitElapsedSec := w },
        setVars fun v => { v with waitRemainingSec := 0 }])
      (.block [
        write fun s => { s.vars with waitElapsedSec := s.locals.totalElapsedSec },
        .set fun s => { s with vars := { s.vars with
          waitRemainingSec := w - s.locals.totalElapsedSec } }]))
    (Between L F) X Y := by
  have hlocals : ∀ (p : Locals → Prop) s h s' h', p s.locals → T.rely s h s' h' → p s'.locals := by
    intro p s h s' h' hp hr
    rw [(o.others s h s' h' hr).1]
    exact hp
  have hstable : Stable T (Framed C Vars.Unfilled) := o.calmC.stable_framed o.stable_unfilled
  have hfull : ∀ p : Vars → Prop, Stable T (fun s _ => p s.vars) →
      Stable T fun s h => Framed C p s h ∧ w ≤ s.locals.totalElapsedSec := by
    intro p hp s h s' h' ha hr
    exact ⟨o.calmC.stable_framed hp _ _ _ _ ha.1 hr,
      hlocals (fun l => w ≤ l.totalElapsedSec) _ _ _ _ ha.2 hr⟩
  have hless : Stable T fun s h => Framed C Vars.Unfilled s h ∧ s.locals.totalElapsedSec < w := by
    intro s h s' h' ha hr
    exact ⟨hstable _ _ _ _ ha.1 hr, hlocals (fun l => l.totalElapsedSec < w) _ _ _ _ ha.2 hr⟩
  refine .ite (M := fun s h => Framed C Vars.Unfilled s h ∧ w ≤ s.locals.totalElapsedSec)
    (N := fun s h => Framed C Vars.Unfilled s h ∧ s.locals.totalElapsedSec < w) hstable
    (fun s h hc hb => ⟨hc, of_decide_eq_true hb⟩)
    (fun s h hc hb => ⟨hc, UInt32.not_le.1 (of_decide_eq_false hb)⟩) ?_ ?_
  · refine .seq (M := fun s h => Framed C Vars.Filled s h ∧ w ≤ s.locals.totalElapsedSec)
      (.set (hfull _ o.stable_unfilled) fun s h hp => ?_) <|
      .seq (M := Framed F Vars.Filled) (.does (hfull _ o.stable_filled) fun s h i hp _ => ?_) <|
      .post (o.calmF.set_framed o.stable_filled (fun s => ⟨_, _, _, _, rfl⟩) fun s => id)
        fun _ _ => Or.inl
    · obtain ⟨hguar, hkept⟩ := o.calmC.quiet s h _ hp.1.1 ⟨_, _, true, _, rfl⟩
      exact ⟨hguar, ⟨hkept, rfl⟩, hp.2⟩
    · obtain ⟨hguar, hkept⟩ := o.fills s h hp.1.1 hp.2 _ rfl
      exact ⟨hguar, hkept, hp.1.2⟩
  · refine .seq (M := Framed L Vars.Unfilled) (.does hless fun s h i hp _ => ?_) <|
      .post (o.calmL.set_framed o.stable_unfilled (fun s => ⟨_, _, _, _, rfl⟩) fun s => id)
        fun _ _ => Or.inr
    obtain ⟨hguar, hkept⟩ := o.goesOn s h hp.1.1 hp.2 _ rfl
    exact ⟨hguar, hkept, hp.1.2⟩

theorem stable_between : Stable T (Between L F) := by
  rintro s h s' h' (hf | hl) hr
  · exact Or.inl (o.calmF.stable_framed o.stable_filled _ _ _ _ hf hr)
  · exact Or.inr (o.calmL.stable_framed o.stable_unfilled _ _ _ _ hl hr)

theorem save_triple : Triple T (Between L F) (saveState .wait) (Between L F) X Y :=
  .or ((o.saveF _ o.stable_filled X Y).post fun _ _ => Or.inl)
    ((o.saveL _ o.stable_unfilled X Y).post fun _ _ => Or.inr)

/-- One turn of the loop. -/
theorem turn_triple : Triple T (Framed L Vars.Unfilled) (waitTurn w) (Between L F) E Y := by
  have hunfilled := o.stable_unfilled
  refine .seq (M := Framed D Vars.Unfilled)
    (.emit (o.calmL.stable_framed hunfilled) fun s h hp => ?_) <|
    .seq (M := fun s h => (s.locals.requested = true ∧ E s h) ∨
        (s.locals.requested = false ∧ Framed R Vars.Unfilled s h))
      (.does (o.calmD.stable_framed hunfilled) fun s h i hp _ => ?_) <|
    .seq (M := Framed R Vars.Unfilled) (.when (M := E) ?_ (o.calmR.stable_framed hunfilled)
      ?_ ?_ (.brk o.calmE.stable)) <|
    .seq (M := Framed C Vars.Unfilled)
      (.does (o.calmR.stable_framed hunfilled) fun s h i hp hi => ?_) <|
    .seq o.branch_triple <|
    .when (M := Between L F) o.stable_between o.stable_between (fun _ _ hp _ => hp)
      (fun _ _ hp _ => hp) (.seq o.save_triple ?_)
  · obtain ⟨hguar, hkept⟩ := o.delays s h hp.1
    exact ⟨hguar, hkept, hp.2⟩
  · generalize hreq : s.vars.completeRequested = b
    obtain ⟨hguar, hset, hunset⟩ := o.testTick s h b hp.1 hreq _ rfl
    refine ⟨hguar, ?_⟩
    cases b with
    | true => exact Or.inl ⟨rfl, hset rfl⟩
    | false => exact Or.inr ⟨rfl, hunset rfl, hp.2⟩
  · rintro s h s' h' (⟨hreq, he⟩ | ⟨hreq, hrest⟩) hr
    · exact Or.inl ⟨by rw [(o.others s h s' h' hr).1]; exact hreq, o.calmE.stable _ _ _ _ he hr⟩
    · exact Or.inr ⟨by rw [(o.others s h s' h' hr).1]; exact hreq,
        o.calmR.stable_framed hunfilled _ _ _ _ hrest hr⟩
  · rintro s h (⟨-, he⟩ | ⟨hreq, -⟩) hb
    · exact he
    · rw [hreq] at hb
      exact absurd hb Bool.false_ne_true
  · rintro s h (⟨hreq, -⟩ | ⟨-, hrest⟩) hb
    · rw [hreq] at hb
      exact absurd hb.symm Bool.false_ne_true
    · exact hrest
  · obtain ⟨hguar, hkept⟩ := o.computes s h i hp.1 hi _ rfl
    rw [List.append_nil]
    exact ⟨hguar, hkept, hp.2⟩
  · refine .set o.stable_between fun s h hp => ?_
    rcases hp with hp | hp
    · obtain ⟨hguar, hkept⟩ := o.calmF.quiet s h _ hp.1 ⟨_, _, _, _, rfl⟩
      exact ⟨hguar, Or.inl ⟨hkept, hp.2⟩⟩
    · obtain ⟨hguar, hkept⟩ := o.calmL.quiet s h _ hp.1 ⟨_, _, _, _, rfl⟩
      exact ⟨hguar, Or.inr ⟨hkept, hp.2⟩⟩

/-- **Waiting.** -/
theorem triple : Triple T A (wait w) Z X Y := by
  have hunfilled := o.stable_unfilled
  have hasked : Stable T fun s h => A s h ∧ w ≠ 0 ∧ s.locals.requested = false := by
    rintro s h s' h' ⟨ha, hw, hreq⟩ hr
    rw [(o.others s h s' h' hr).1]
    exact ⟨o.calmA.stable _ _ _ _ ha hr, hw, hreq⟩
  have hshort : Stable T fun s h =>
      A s h ∧ w ≠ 0 ∧ s.locals.requested = false ∧ s.vars.waitElapsedSec < w := by
    rintro s h s' h' ⟨ha, hw, hreq, hlt⟩ hr
    obtain ⟨hlocals, helapsed, -, -⟩ := o.others s h s' h' hr
    rw [hlocals]
    refine ⟨o.calmA.stable _ _ _ _ ha hr, hw, hreq, ?_⟩
    rcases helapsed with heq | hzero
    · rw [heq]
      exact hlt
    · rw [hzero]
      exact UInt32.pos_iff_ne_zero.2 hw
  refine .call o.calmZ.stable <|
    .seq (M := A) (.when (M := fun s h => A s h ∧ w ≠ 0) o.calmA.stable o.calmA.stable
      (fun s h ha hb => ⟨ha, of_decide_eq_true hb⟩) (fun _ _ ha _ => ha)
      (.does ?_ fun s h i hp _ => o.testTop s h hp.1 hp.2 _ rfl)) <|
    .seq (M := fun s h => A s h ∧ w ≠ 0 ∧ s.locals.requested = false)
      (.when (M := E) o.calmA.stable hasked ?_ ?_ o.leave_triple) <|
    .seq (M := fun s h => A s h ∧ w ≠ 0 ∧ s.locals.requested = false ∧ s.vars.waitElapsedSec < w)
      (.when (M := E) hasked hshort ?_ ?_ o.leave_triple) <|
    .seq (M := B) (.set hshort fun s h hp => o.reads s h hp.1 hp.2.1 hp.2.2.1 hp.2.2.2 _ rfl) <|
    .seq (o.calmB.set fun s => ⟨_, _, _, _, rfl⟩) <|
    .seq (M := Framed B Vars.Unfilled) (.set o.calmB.stable fun s h hp => ?_) <|
    .seq (o.calmB.set_framed hunfilled (fun s => ⟨_, _, _, _, rfl⟩) fun s => id) <|
    .seq (M := Framed L Vars.Unfilled)
      (.does (o.calmB.stable_framed hunfilled) fun s h i hp hi => ?_) <|
    .seq (o.calmL.set_framed hunfilled (fun s => ⟨_, _, _, _, rfl⟩) fun s => id) <|
    .seq (M := E) (.pre (.loop (I := Between L F) o.stable_between ?_ o.turn_triple ?_ ?_)
      (o.calmL.stable_framed hunfilled) fun _ _ => Or.inr) o.clear_triple
  · rintro s h s' h' ⟨ha, hw⟩ hr
    exact ⟨o.calmA.stable _ _ _ _ ha hr, hw⟩
  · intro s h ha hb
    rcases Bool.or_eq_true_iff.1 hb with hw | hreq
    · exact o.leavesTop s h ha (Or.inl (of_decide_eq_true hw))
    · exact o.leavesTop s h ha (Or.inr (Or.inl hreq))
  · intro s h ha hb
    obtain ⟨hw, hreq⟩ := Bool.or_eq_false_iff.1 hb
    exact ⟨ha, of_decide_eq_false hw, hreq⟩
  · exact fun s h hp hb => o.leavesTop s h hp.1 (Or.inr (Or.inr (of_decide_eq_true hb)))
  · exact fun s h hp hb =>
      ⟨hp.1, hp.2.1, hp.2.2, UInt32.not_le.1 (of_decide_eq_false hb)⟩
  · obtain ⟨hguar, hkept⟩ := o.calmB.quiet s h _ hp ⟨_, _, false, _, rfl⟩
    exact ⟨hguar, hkept, fun hcomplete => absurd hcomplete Bool.false_ne_true⟩
  · obtain ⟨hguar, hkept⟩ := o.starts s h i hp.1 hi _ rfl
    exact ⟨hguar, hkept, hp.2⟩
  · rintro s h (hf | hl) hb
    · rw [show s.vars.waitComplete = true from hf.2] at hb
      exact absurd hb Bool.false_ne_true
    · exact hl
  · rintro s h (hf | hl) hb
    · exact o.finishes s h hf.1
    · have hcomplete : s.vars.waitComplete = true := by simpa using hb
      exact o.leavesLoop s h hl.1 (hl.2 hcomplete)
  · exact fun _ _ he => he

end WaitOutline

/-! ## No time to wait -/

section Zero

variable {T : Terms State Input Event} {A E Z X Y : Assertion State Event}

theorem calm_false : Calm T fun _ _ => False :=
  ⟨fun _ _ _ _ hf _ => hf, fun _ _ _ hf _ => hf.elim⟩

/-- A wait of 0 only clears the variables. -/
theorem wait_zero (calmA : Calm T A) (calmE : Calm T E) (calmZ : Calm T Z)
    (others : ∀ s h s' h', T.rely s h s' h' → s'.locals = s.locals ∧
      (s'.vars.waitElapsedSec = s.vars.waitElapsedSec ∨ s'.vars.waitElapsedSec = 0) ∧
      (s.vars.completeRequested = true → s'.vars.completeRequested = true) ∧
      (s'.vars.waitComplete = s.vars.waitComplete ∨
        s'.vars.waitComplete = true ∧ s'.vars.completeRequested = true))
    (leaves : ∀ s h, A s h → E s h)
    (clears : ∀ s h, E s h → ∀ s', s' = { s with vars := { s.vars with waitElapsedSec := 0 } } →
      T.guarantee s h s' h ∧ Z s' h) : Triple T A (wait 0) Z X Y := by
  have hsave : ∀ p, Stable T (fun s _ => p s.vars) → ∀ X Y,
      Triple T (Framed (fun _ _ => False) p) (saveState .wait) (Framed (fun _ _ => False) p) X Y :=
    fun _ _ _ _ => .dead fun _ _ hf => hf.1
  have houtline : WaitOutline T 0 A (fun _ _ => False) (fun _ _ => False) (fun _ _ => False)
      (fun _ _ => False) (fun _ _ => False) (fun _ _ => False) E Z :=
    { calmA, calmE, calmZ, others
      calmB := calm_false
      calmL := calm_false
      calmD := calm_false
      calmR := calm_false
      calmC := calm_false
      calmF := calm_false
      testTop := fun _ _ _ hw => absurd rfl hw
      leavesTop := fun s h ha _ => leaves s h ha
      reads := fun _ _ _ hw => absurd rfl hw
      starts := fun _ _ _ hf => hf.elim
      delays := fun _ _ hf => hf.elim
      testTick := fun _ _ _ hf => hf.elim
      computes := fun _ _ _ hf => hf.elim
      fills := fun _ _ hf => hf.elim
      goesOn := fun _ _ hf => hf.elim
      saveL := hsave
      saveF := hsave
      leavesLoop := fun _ _ hf => hf.elim
      finishes := fun _ _ hf => hf.elim
      clears }
  exact houtline.triple

end Zero

/-! ## One assertion for all of a wait -/

section Const

variable {T : Terms State Input Event} {A X Y : Assertion State Event}

/-- What a wait does to the state, but for saving it. -/
def WaitChange (s s' : State) : Prop :=
  ∃ elapsed start requested saved total,
    (requested = s.locals.requested ∨ requested = s.vars.completeRequested) ∧
    s' = { s with
      vars := { s.vars with waitElapsedSec := elapsed, startTime := start }
      locals := { s.locals with
        requested := requested
        savedElapsedSec := saved
        totalElapsedSec := total } }

/-- What a wait shows, but for saving. -/
inductive Event.OfWait (w : UInt32) : Event → Prop
  | top (b : Bool) : OfWait w (.tested .waitTop b)
  | waiting : OfWait w (.waiting w)
  | delayed : OfWait w .delayed
  | tick (b : Bool) : OfWait w (.tested .tick b)
  | wrote : OfWait w .wrote

/-- A wait whose actions all keep an assertion. -/
theorem wait_const (w : UInt32) (calm : Calm T A)
    (others : ∀ s h s' h', T.rely s h s' h' → s'.locals = s.locals ∧
      (s'.vars.waitElapsedSec = s.vars.waitElapsedSec ∨ s'.vars.waitElapsedSec = 0) ∧
      (s.vars.completeRequested = true → s'.vars.completeRequested = true) ∧
      (s'.vars.waitComplete = s.vars.waitComplete ∨
        s'.vars.waitComplete = true ∧ s'.vars.completeRequested = true))
    (changes : ∀ s h s', A s h → WaitChange s s' → T.guarantee s h s' h ∧ A s' h)
    (shows : ∀ s h s' e, A s h → WaitChange s s' → e.OfWait w →
      T.guarantee s h s' (h ++ [e]) ∧ A s' (h ++ [e]))
    (saves : SaveOutline T .wait A A A A) : Triple T A (wait w) A X Y := by
  have houtline : WaitOutline T w A A A A A A A A A :=
    { others
      calmA := calm
      calmB := calm
      calmL := calm
      calmD := calm
      calmR := calm
      calmC := calm
      calmF := calm
      calmE := calm
      calmZ := calm
      testTop := by
        rintro s h ha - s' rfl
        exact shows s h _ _ ha ⟨_, _, _, _, _, Or.inr rfl, rfl⟩ (.top _)
      leavesTop := fun _ _ ha _ => ha
      reads := by
        rintro s h ha - - - s' rfl
        exact changes s h _ ha ⟨_, _, _, _, _, Or.inl rfl, rfl⟩
      starts := by
        rintro s h i ha - s' rfl
        exact shows s h _ _ ha ⟨_, _, _, _, _, Or.inl rfl, rfl⟩ .waiting
      delays := fun s h ha => shows s h s _ ha ⟨_, _, _, _, _, Or.inl rfl, rfl⟩ .delayed
      testTick := by
        rintro s h b ha rfl s' rfl
        obtain ⟨hguar, hkept⟩ := shows s h _ _ ha ⟨_, _, _, _, _, Or.inr rfl, rfl⟩
          (.tick s.vars.completeRequested)
        exact ⟨hguar, fun _ => hkept, fun _ => hkept⟩
      computes := by
        rintro s h i ha - s' rfl
        exact changes s h _ ha ⟨_, _, _, _, _, Or.inl rfl, rfl⟩
      fills := by
        rintro s h ha - s' rfl
        exact shows s h _ _ ha ⟨_, _, _, _, _, Or.inl rfl, rfl⟩ .wrote
      goesOn := by
        rintro s h ha - s' rfl
        exact shows s h _ _ ha ⟨_, _, _, _, _, Or.inl rfl, rfl⟩ .wrote
      saveL := saves.triple_framed fun _ _ ha => ha
      saveF := saves.triple_framed fun _ _ ha => ha
      leavesLoop := fun _ _ ha _ => ha
      finishes := fun _ _ ha => ha
      clears := by
        rintro s h ha s' rfl
        exact changes s h _ ha ⟨_, _, _, _, _, Or.inl rfl, rfl⟩ }
  exact houtline.triple

end Const

end Leop
end FlightApps
