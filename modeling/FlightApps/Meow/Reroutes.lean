import FlightApps.Meow.Modules

/-!
# Rules and their handlers

A rule of the reroute table acts through a handler on its port.  The two tables are updated one
after the other: `meow_csp_reroute_set` and `meow_csp_reroute_clear` first take away whatever
handler the old port has, then write the rule, and only then is the new handler put in.  So a rule
that shares its port with another takes the handler of both with it, and a rule that finds no slot
for its handler stays in the table as if it were active.

`Csp.deliver` is what becomes of a packet.  `Agree` says that the tables agree in all of a run, and
`reroutes_agree` that they do exactly if no call of it `Strands` a rule.  Callers are assumed to
leave the handlers of rerouted ports alone, `Meddles`.
-/

set_option autoImplicit false

namespace FlightApps
namespace Meow

/-! ## Packets -/

/-- `FORWARD_TMO_DEFAULT`. -/
def forwardTmoDefault : UInt32 := 1000

/-- What becomes of a packet. -/
inductive Outcome
  /-- It goes to `csp_service_handler`. -/
  | service
  /-- It goes to a handler of a caller or of a module. -/
  | call (fn : Fn) (ctx : Ctx)
  /-- It is sent on with `csp_sendto`. -/
  | forward (dst dstPort srcPort : UInt8) (tmo : UInt32)
deriving DecidableEq

/-- `reroute_fn`, for a packet from a node. -/
def rerouteFn (rule : Reroute) (src : UInt8) : Outcome :=
  if rule.srcNode ≠ 0 ∧ src ≠ rule.srcNode then .service
  else .forward rule.fwdDst rule.fwdDstPort rule.fwdSrcPort
    (if rule.timeoutMs ≠ 0 then rule.timeoutMs else forwardTmoDefault)

/-- `meow_csp_dispatch` of a packet to a port, from a node. -/
def Csp.deliver (s : Csp) (port src : UInt8) : Outcome :=
  match s.dispatch port with
  | none => .service
  | some (.reroute, .rule i) => rerouteFn (s.reroutes i) src
  | some (fn, ctx) => .call fn ctx

/-! ## Calls and their answers -/

/-- What a call returns. -/
def Csp.answer (s : Csp) : Op → Ret
  | .handlerSet port fn ctx => (s.handlerSet port (fn.map .given) (.ofAddr ctx)).2
  | .handlerLoad port path symbol load lookup => (s.handlerLoad port path symbol load lookup).2.1
  | .handlerClear _ => .ok
  | .rerouteSet idx entry => (s.rerouteSet idx entry).2.1
  | .rerouteClear idx => (s.rerouteClear idx).2.1

/-- The tables under their callers, with what the calls return. -/
def calls : Machine Csp Op Ret := ⟨fun s op => ((s.act op).1, s.answer op)⟩

/-- The rules whose `meow_csp_reroute_set` returned OK. -/
abbrev Accepted := Fin rerouteMax → Bool

/-- A call with an entry writes the rule, and what it returns is the answer for this rule. -/
def accept (g : Accepted) (op : Op) (r : Ret) : Accepted := fun i =>
  match op with
  | .rerouteSet idx (some _) => if idx.toNat = i.val then r == .ok else g i
  | _ => g i

/-- The tables after a list of calls, next to the rules that were accepted. -/
def after (ops : List Op) : Csp × Accepted :=
  (calls.watch accept).run (cspStart, fun _ => false) ops

/-- Some active rule is for a port. -/
def Rerouted (s : Csp) (port : UInt8) : Prop :=
  ∃ i, (s.reroutes i).active = true ∧ (s.reroutes i).dstPort = port

/-- The port whose handler a call of the handler table is about. -/
def Op.port? : Op → Option UInt8
  | .handlerSet port _ _ => some port
  | .handlerLoad port _ _ _ _ => some port
  | .handlerClear port => some port
  | _ => none

/-- A call that sets or clears a handler on a rerouted port. -/
def Meddles (s : Csp) (op : Op) : Prop :=
  s.answer op = .ok ∧ ∃ port, op.port? = some port ∧ Rerouted s port

/-- The rule that a call writes. -/
def Op.rule? : Op → Option Nat
  | .rerouteSet idx _ => some idx.toNat
  | .rerouteClear idx => some idx.toNat
  | _ => none

/-- The new rule of a call is for a port. -/
def Op.Claims : Op → UInt8 → Prop
  | .rerouteSet _ (some entry), port => entry.active = true ∧ entry.dstPort = port
  | _, _ => False

/-- Packets to a port go by a rule. -/
def Handles (s : Csp) (i : Fin rerouteMax) (port : UInt8) : Prop :=
  s.dispatch port = some (.reroute, .rule i)

/-- Packets to a port go by an active rule for it. -/
def Applied (s : Csp) (port : UInt8) : Prop :=
  ∃ i, (s.reroutes i).active = true ∧ (s.reroutes i).dstPort = port ∧ Handles s i port

/-- The tables agree in all of a run. -/
structure Agree (ops : List Op) : Prop where
  /-- The port of a rule that was accepted is served by an active rule. -/
  applied : ∀ pre, pre <+: ops → ∀ i, ((after pre).1.reroutes i).active = true →
    (after pre).2 i = true → Applied (after pre).1 ((after pre).1.reroutes i).dstPort
  /-- A call of `meow_csp_reroute_set` with an error does not leave its rule active, unless it is
  refused for its arguments and changes nothing. -/
  refused : ∀ pre idx entry, pre ++ [.rerouteSet idx entry] <+: ops →
    (after pre).1.answer (.rerouteSet idx entry) ≠ .ok →
    (after (pre ++ [.rerouteSet idx entry])).1 = (after pre).1 ∨
    ∀ i : Fin rerouteMax, i.val = idx.toNat →
      ((after (pre ++ [.rerouteSet idx entry])).1.reroutes i).active = false
  /-- A call that writes a rule matters only to the packets that went by this rule and to those the
  new rule is for. -/
  others : ∀ pre op n, pre ++ [op] <+: ops → op.rule? = some n → ∀ port src,
    (after (pre ++ [op])).1.deliver port src ≠ (after pre).1.deliver port src →
    (∃ i : Fin rerouteMax, i.val = n ∧ Handles (after pre).1 i port) ∨ op.Claims port

/-- An active rule has the same port as another. -/
def Shared (s : Csp) (i : Fin rerouteMax) : Prop :=
  (s.reroutes i).active = true ∧
    ∃ j, j ≠ i ∧ (s.reroutes j).active = true ∧ (s.reroutes j).dstPort = (s.reroutes i).dstPort

/-- There is no handler for a port, and no slot for one. -/
def Full (s : Csp) (port : UInt8) : Prop :=
  findPort s.handlers port = none ∧ findFree s.handlers = none

/-- A call that takes the handler from a rule that stays, or that writes an active rule for which
there is no slot. -/
def Strands (s : Csp) : Op → Prop
  | .rerouteSet idx (some entry) => ∃ h : idx.toNat < rerouteMax,
      (Shared s ⟨idx.toNat, h⟩ ∧
        ¬(entry.active = true ∧ entry.dstPort = (s.reroutes ⟨idx.toNat, h⟩).dstPort)) ∨
      ((s.reroutes ⟨idx.toNat, h⟩).active = false ∧ entry.active = true ∧ Full s entry.dstPort)
  | .rerouteClear idx => ∃ h : idx.toNat < rerouteMax, Shared s ⟨idx.toNat, h⟩
  | _ => False

instance (s : Csp) (i : Fin rerouteMax) : Decidable (Shared s i) :=
  inferInstanceAs (Decidable (_ ∧ ∃ _, _))

instance (s : Csp) (port : UInt8) : Decidable (Full s port) :=
  inferInstanceAs (Decidable (_ ∧ _))

instance (s : Csp) (op : Op) : Decidable (Strands s op) :=
  match op with
  | .rerouteSet _ (some _) => inferInstanceAs (Decidable (∃ _ : _ < _, _))
  | .rerouteSet _ none => inferInstanceAs (Decidable False)
  | .rerouteClear _ => inferInstanceAs (Decidable (∃ _ : _ < _, _))
  | .handlerSet _ _ _ => inferInstanceAs (Decidable False)
  | .handlerLoad _ _ _ _ _ => inferInstanceAs (Decidable False)
  | .handlerClear _ => inferInstanceAs (Decidable False)

/-! ## Dispatch

What the calls do to `Csp.dispatch`.  With one active slot for each port it does not matter which
slots they use. -/

variable {s t : Csp}

theorem dispatch_serves (hs : Tidy s) {i : Slot} {port : UInt8} (hi : (s.handlers i).Serves port) :
    s.dispatch port = (s.handlers i).fn.map fun fn => (fn, (s.handlers i).ctx) := by
  have hfind : findPort s.handlers port = some i := by
    cases hfind : findPort s.handlers port with
    | none => exact absurd hi (findPort_none hfind i)
    | some j => rw [hs.ports j i port (findPort_some hfind) hi]
  rw [Csp.dispatch, hfind, Option.bind_eq_bind, Option.bind_some]
  cases (s.handlers i).fn with
  | none => rfl
  | some fn => rfl

theorem dispatch_unserved {port : UInt8} (h : ∀ i, ¬(s.handlers i).Serves port) :
    s.dispatch port = none := by
  cases hfind : findPort s.handlers port with
  | none => rw [Csp.dispatch, hfind]; rfl
  | some i => exact absurd (findPort_some hfind) (h i)

theorem dispatch_congr (h : t.handlers = s.handlers) (port : UInt8) :
    t.dispatch port = s.dispatch port := by
  rw [Csp.dispatch, h, Csp.dispatch]

section Put

variable {i : Slot} {x : Handler} (hs : Tidy s) (htidy : Tidy t)
  (ht : t.handlers = Function.update s.handlers i x)
include ht

theorem dispatch_put_self (htidy : Tidy t) {port : UInt8} (hx : x.Serves port) :
    t.dispatch port = x.fn.map fun fn => (fn, x.ctx) := by
  have hi : t.handlers i = x := by rw [ht, Function.update_self]
  rw [← hi] at hx ⊢
  exact dispatch_serves htidy hx

include hs

theorem dispatch_put_gone {port : UInt8} (hx : ¬x.Serves port)
    (hold : (s.handlers i).Serves port) : t.dispatch port = none := by
  refine dispatch_unserved fun j hj => ?_
  by_cases hji : j = i
  · rw [ht, hji, Function.update_self] at hj
    exact hx hj
  · rw [ht, Function.update_of_ne hji] at hj
    exact hji (hs.ports j i port hj hold)

include htidy

theorem dispatch_put_other {port : UInt8} (hx : ¬x.Serves port)
    (hold : ¬(s.handlers i).Serves port) : t.dispatch port = s.dispatch port := by
  by_cases hserved : ∃ j, (s.handlers j).Serves port
  · obtain ⟨j, hj⟩ := hserved
    have hne : j ≠ i := by
      rintro rfl
      exact hold hj
    have hsame : t.handlers j = s.handlers j := by rw [ht, Function.update_of_ne hne]
    rw [dispatch_serves hs hj, dispatch_serves htidy (hsame ▸ hj), hsame]
  · rw [not_exists] at hserved
    rw [dispatch_unserved hserved]
    refine dispatch_unserved fun j hj => ?_
    by_cases hji : j = i
    · rw [ht, hji, Function.update_self] at hj
      exact hx hj
    · rw [ht, Function.update_of_ne hji] at hj
      exact hserved j hj

end Put

theorem zeroHandler_serves (port : UInt8) : ¬zeroHandler.Serves port :=
  fun h => absurd h.1 (by decide)

theorem handlerClear_tidy (hs : Tidy s) (port : UInt8) : Tidy (s.handlerClear port).1 :=
  (handlerClear_move (p := fun _ => True) s port).tidy hs

theorem handlerClear_dispatch (hs : Tidy s) (port port' : UInt8) :
    (s.handlerClear port).1.dispatch port' = if port' = port then none else s.dispatch port' := by
  cases hfind : findPort s.handlers port with
  | none =>
    have hsame : (s.handlerClear port).1 = s := by rw [Csp.handlerClear, hfind]
    rw [hsame]
    split
    · rename_i heq
      rw [heq]
      exact dispatch_unserved (findPort_none hfind)
    · rfl
  | some i =>
    have hserves := findPort_some hfind
    have ht := handlerClear_handlers hfind
    split
    · rename_i heq
      rw [heq]
      exact dispatch_put_gone hs ht (zeroHandler_serves port) hserves
    · rename_i hne
      refine dispatch_put_other hs (handlerClear_tidy hs port) ht (zeroHandler_serves port') ?_
      exact fun h => hne (h.2.symm.trans hserves.2)

theorem handlerSet_tidy (hs : Tidy s) (port : UInt8) {fn : Fn} (hfn : ∀ m a, fn ≠ .symbol m a)
    (ctx : Ctx) : Tidy (s.handlerSet port (some fn) ctx).1 := by
  refine (handlerSet_move (p := fun _ => True) ?_ fun _ _ => trivial).tidy hs
  intro m a heq
  exact hfn m a (Option.some.inj heq)

/-- `meow_csp_handler_set` fails exactly if there is no slot, and then it changes nothing. -/
theorem handlerSet_full {port : UInt8} (h : Full s port) (fn : Fn) (ctx : Ctx) :
    s.handlerSet port (some fn) ctx = (s, .errBounds) := by
  rw [Csp.handlerSet, if_neg (by simp), h.1, h.2]

theorem handlerSet_room (hs : Tidy s) {port : UInt8} (h : ¬Full s port) (fn : Fn)
    (hfn : ∀ m a, fn ≠ .symbol m a) (ctx : Ctx) :
    (s.handlerSet port (some fn) ctx).2 = .ok ∧
      ∀ port', (s.handlerSet port (some fn) ctx).1.dispatch port' =
        if port' = port then some (fn, ctx) else s.dispatch port' := by
  have htidy := handlerSet_tidy hs port hfn ctx
  have hput : ∀ (i : Slot) (x : Handler),
      s.handlerSet port (some fn) ctx = (s.setHandler i x, .ok) → x.Serves port → x.fn = some fn →
      x.ctx = ctx → (∀ q, (s.handlers i).Serves q → q = port) →
      (s.handlerSet port (some fn) ctx).2 = .ok ∧
        ∀ port', (s.handlerSet port (some fn) ctx).1.dispatch port' =
          if port' = port then some (fn, ctx) else s.dispatch port' := by
    intro i x heq hx hxfn hxctx hold
    rw [heq] at htidy ⊢
    refine ⟨rfl, fun port' => ?_⟩
    have ht : (s.setHandler i x).handlers = Function.update s.handlers i x := rfl
    split
    · rename_i hport
      rw [hport, dispatch_put_self ht htidy hx, hxfn, hxctx]
      rfl
    · rename_i hport
      refine dispatch_put_other hs htidy ht ?_ fun hq => hport (hold port' hq)
      exact fun hq => hport (hq.2.symm.trans hx.2)
  cases hfind : findPort s.handlers port with
  | some i =>
    have hserves := findPort_some hfind
    refine hput i { s.handlers i with fn := some fn, ctx := ctx } ?_ hserves rfl rfl ?_
    · rw [Csp.handlerSet, hfind]
      rfl
    · exact fun q hq => hq.2.symm.trans hserves.2
  | none =>
    cases hfree : findFree s.handlers with
    | none => exact absurd ⟨hfind, hfree⟩ h
    | some i =>
      refine hput i { s.handlers i with
        port := port, fn := some fn, ctx := ctx, hasModule := false, active := true } ?_
          ⟨rfl, rfl⟩ rfl rfl ?_
      · rw [Csp.handlerSet, hfind, hfree]
        rfl
      · exact fun q hq => absurd hq.1 (by rw [findFree_some hfree]; decide)

theorem handlerClear_reroutes (s : Csp) (port : UInt8) :
    (s.handlerClear port).1.reroutes = s.reroutes := by
  rw [Csp.handlerClear]
  split
  · split
    · rfl
    · rfl
  · rfl

theorem handlerSet_reroutes (s : Csp) (port : UInt8) (fn : Option Fn) (ctx : Ctx) :
    (s.handlerSet port fn ctx).1.reroutes = s.reroutes := by
  rw [Csp.handlerSet]
  split
  · rfl
  · split
    · rfl
    · split
      · rfl
      · rfl

/-- A loaded handler changes at most what becomes of packets to its port. -/
theorem attach_dispatch (hs : Tidy s) {m : ModuleId} (hm : m ∉ s.loaded) (port : UInt8)
    (addr : Addr) :
    (({ s with loaded := m :: s.loaded } : Csp).attach port m addr).1.reroutes = s.reroutes ∧
    ∀ q, (({ s with loaded := m :: s.loaded } : Csp).attach port m addr).1.dispatch q =
        s.dispatch q ∨
      (({ s with loaded := m :: s.loaded } : Csp).attach port m addr).2.1 = .ok ∧ q = port := by
  have htidy : Tidy (({ s with loaded := m :: s.loaded } : Csp).attach port m addr).1 :=
    (attach_move (p := fun _ => True) hs hm addr).tidy hs
  have hput : ∀ (i : Slot) (t : Csp), Tidy t →
      t.handlers = Function.update s.handlers i (loadedHandler port m addr) →
      (∀ q, (s.handlers i).Serves q → q = port) →
      ∀ q, t.dispatch q = s.dispatch q ∨ Ret.ok = .ok ∧ q = port := by
    intro i t ht heq hold q
    by_cases hq : q = port
    · exact .inr ⟨rfl, hq⟩
    · refine .inl (dispatch_put_other hs ht heq ?_ fun h => hq (hold q h))
      exact fun h => hq h.2.symm
  rw [Csp.attach] at htidy ⊢
  split at htidy
  · rename_i i hi
    have hold : ∀ q, (s.handlers i).Serves q → q = port :=
      fun q hq => hq.2.symm.trans (findPort_some hi).2
    split at htidy
    · rename_i hmod
      rw [if_pos hmod]
      exact ⟨rfl, hput i _ htidy rfl hold⟩
    · rename_i hmod
      rw [if_neg hmod]
      exact ⟨rfl, hput i _ htidy rfl hold⟩
  · split at htidy
    · exact ⟨rfl, fun q => .inl (dispatch_congr rfl q)⟩
    · rename_i i hi
      refine ⟨rfl, hput i _ htidy rfl fun q hq => ?_⟩
      exact absurd (hq.1.symm.trans (findFree_some hi)) (by decide)

theorem handlerLoad_dispatch (hs : Tidy s) (port : UInt8) (path symbol : Option String)
    (load : Except Int32 ModuleId) (lookup : Except Int32 Addr) :
    (s.handlerLoad port path symbol load lookup).1.reroutes = s.reroutes ∧
    ∀ q, (s.handlerLoad port path symbol load lookup).1.dispatch q = s.dispatch q ∨
      (s.handlerLoad port path symbol load lookup).2.1 = .ok ∧ q = port := by
  rw [Csp.handlerLoad]
  split
  · exact ⟨rfl, fun q => .inl rfl⟩
  · split
    · exact ⟨rfl, fun q => .inl rfl⟩
    · rename_i m hload
      cases lookup with
      | error err => exact ⟨rfl, fun q => .inl rfl⟩
      | ok addr => exact attach_dispatch hs (osModuleLoad_new hload) port addr

/-- A call of the handler table changes at most what becomes of packets to its port. -/
theorem act_dispatch (hs : Tidy s) {op : Op} {port : UInt8} (hport : op.port? = some port) :
    (s.act op).1.reroutes = s.reroutes ∧
    ∀ q, (s.act op).1.dispatch q = s.dispatch q ∨
      s.answer op = .ok ∧ q = port := by
  cases op with
  | handlerSet p fn ctx =>
    cases hport
    cases fn with
    | none => exact ⟨rfl, fun q => .inl rfl⟩
    | some fn =>
      refine ⟨handlerSet_reroutes s port _ _, fun q => ?_⟩
      by_cases hfull : Full s port
      · left
        simp only [Csp.act, Option.map_some, handlerSet_full hfull]
      · obtain ⟨hok, hdisp⟩ := handlerSet_room hs hfull (.given fn) (by simp) (.ofAddr ctx)
        have hq := hdisp q
        split at hq
        · rename_i heq
          exact .inr ⟨hok, heq⟩
        · exact .inl hq
  | handlerLoad p path symbol load lookup =>
    cases hport
    exact handlerLoad_dispatch hs port path symbol load lookup
  | handlerClear p =>
    cases hport
    refine ⟨handlerClear_reroutes s port, fun q => ?_⟩
    have hq := handlerClear_dispatch hs port q
    split at hq
    · rename_i heq
      exact .inr ⟨rfl, heq⟩
    · exact .inl hq
  | rerouteSet => cases hport
  | rerouteClear => cases hport

/-! ## Writing a rule -/

/-- A rule is written, and its handler put in if it is active and `ok` says so. -/
structure Wrote (s : Csp) (i : Fin rerouteMax) (entry : Reroute) (ok : Prop) (t : Csp) :
    Prop where
  rules : t.reroutes = Function.update s.reroutes i entry
  claimed : ok → entry.active = true → Handles t i entry.dstPort
  dropped : (s.reroutes i).active = true →
    ¬(entry.active = true ∧ entry.dstPort = (s.reroutes i).dstPort) →
    t.dispatch (s.reroutes i).dstPort = none
  kept : ∀ port, ¬(entry.active = true ∧ entry.dstPort = port) →
    ¬((s.reroutes i).active = true ∧ (s.reroutes i).dstPort = port) →
    t.dispatch port = s.dispatch port

theorem dropRule_dispatch (hs : Tidy s) (i : Fin rerouteMax) (entry : Reroute) (port : UInt8) :
    ((s.dropRule i).1.setRule i entry).dispatch port =
      if (s.reroutes i).active = true ∧ (s.reroutes i).dstPort = port then none
      else s.dispatch port := by
  have hsame : ((s.dropRule i).1.setRule i entry).dispatch port = (s.dropRule i).1.dispatch port :=
    dispatch_congr rfl port
  rw [hsame, Csp.dropRule]
  by_cases hact : (s.reroutes i).active = true
  · rw [if_pos hact, handlerClear_dispatch hs]
    simp only [hact, true_and, eq_comm]
  · rw [if_neg hact, if_neg fun h => hact h.1]

theorem dropRule_reroutes (s : Csp) (i : Fin rerouteMax) :
    (s.dropRule i).1.reroutes = s.reroutes := by
  rw [Csp.dropRule]
  split
  · exact handlerClear_reroutes s _
  · rfl

theorem setRule_reroutes (s : Csp) (i : Fin rerouteMax) (entry : Reroute) :
    ((s.dropRule i).1.setRule i entry).reroutes = Function.update s.reroutes i entry := by
  rw [Csp.setRule, dropRule_reroutes]

theorem setRule_tidy (hs : Tidy s) (i : Fin rerouteMax) (entry : Reroute) :
    Tidy ((s.dropRule i).1.setRule i entry) :=
  (replaceRule_moves (p := fun _ => True) s i entry).keeps (fun _ _ _ hm => hm.tidy) hs

theorem setRule_wrote (hs : Tidy s) (i : Fin rerouteMax) (entry : Reroute) {ok : Prop}
    (hok : ok → entry.active = false) : Wrote s i entry ok ((s.dropRule i).1.setRule i entry) := by
  refine ⟨setRule_reroutes s i entry, ?_, ?_, ?_⟩
  · intro h hact
    exact absurd (hact.symm.trans (hok h)) (by decide)
  · intro hact _
    rw [dropRule_dispatch hs, if_pos ⟨hact, rfl⟩]
  · intro port _ hnot
    rw [dropRule_dispatch hs, if_neg hnot]

/-- The whole of `meow_csp_reroute_set` for an entry in range. -/
theorem rerouteSet_wrote (hs : Tidy s) {idx : UInt8} (h : idx.toNat < rerouteMax)
    (entry : Reroute) :
    Wrote s ⟨idx.toNat, h⟩ entry ((s.rerouteSet idx (some entry)).2.1 = .ok)
        (s.rerouteSet idx (some entry)).1 ∧
      ((s.rerouteSet idx (some entry)).2.1 ≠ .ok ↔ entry.active = true ∧
        Full ((s.dropRule ⟨idx.toNat, h⟩).1.setRule ⟨idx.toNat, h⟩ entry) entry.dstPort) := by
  have hset := setRule_tidy hs ⟨idx.toNat, h⟩ entry
  cases hact : entry.active with
  | false =>
    have heq : s.rerouteSet idx (some entry) =
        ((s.dropRule ⟨idx.toNat, h⟩).1.setRule ⟨idx.toNat, h⟩ entry, .ok,
          (s.dropRule ⟨idx.toNat, h⟩).2) := by
      simp only [Csp.rerouteSet, dif_pos h, hact]
      rfl
    rw [heq]
    exact ⟨setRule_wrote hs _ entry fun _ => hact, by simp⟩
  | true =>
    have heq : s.rerouteSet idx (some entry) =
        ((((s.dropRule ⟨idx.toNat, h⟩).1.setRule ⟨idx.toNat, h⟩ entry).handlerSet entry.dstPort
            (some .reroute) (.rule ⟨idx.toNat, h⟩)).1,
          (((s.dropRule ⟨idx.toNat, h⟩).1.setRule ⟨idx.toNat, h⟩ entry).handlerSet entry.dstPort
            (some .reroute) (.rule ⟨idx.toNat, h⟩)).2, (s.dropRule ⟨idx.toNat, h⟩).2) := by
      simp only [Csp.rerouteSet, dif_pos h, hact]
      rfl
    rw [heq]
    by_cases hfull : Full ((s.dropRule ⟨idx.toNat, h⟩).1.setRule ⟨idx.toNat, h⟩ entry)
        entry.dstPort
    · rw [handlerSet_full hfull]
      exact ⟨setRule_wrote hs _ entry fun hok => absurd hok (by simp), by simp [hfull]⟩
    · obtain ⟨hok, hdisp⟩ := handlerSet_room hset hfull .reroute (by simp)
        (.rule ⟨idx.toNat, h⟩)
      have hw : Wrote s ⟨idx.toNat, h⟩ entry False
          ((s.dropRule ⟨idx.toNat, h⟩).1.setRule ⟨idx.toNat, h⟩ entry) :=
        setRule_wrote hs _ entry False.elim
      refine ⟨⟨?_, ?_, ?_, ?_⟩, by simp [hok, hfull]⟩
      · rw [handlerSet_reroutes, hw.rules]
      · intro _ _
        rw [Handles, hdisp, if_pos rfl]
      · intro hold hne
        rw [hdisp, if_neg fun heq => hne ⟨hact, heq.symm⟩]
        exact hw.dropped hold hne
      · intro port hne hold
        rw [hdisp, if_neg fun heq => hne ⟨hact, heq.symm⟩]
        exact hw.kept port hne hold

/-! ## One step -/

/-- The ports of all active rules are served by active rules. -/
def Serving (s : Csp) : Prop :=
  ∀ i, (s.reroutes i).active = true → Applied s (s.reroutes i).dstPort

theorem deliver_congr {port : UInt8} (hd : t.dispatch port = s.dispatch port)
    (hr : ∀ i, Handles s i port → t.reroutes i = s.reroutes i) (src : UInt8) :
    t.deliver port src = s.deliver port src := by
  rw [Csp.deliver, Csp.deliver, hd]
  split
  · rfl
  · rename_i i hi
    rw [hr i hi]
  · rfl

section Write

variable {i : Fin rerouteMax} {entry : Reroute} {ok : Prop}

/-- A rule that shares its port with none, or keeps the port, can be written. -/
theorem Wrote.serving (h : Wrote s i entry ok t) (hs : Serving s) (hok : ok)
    (hsafe : Shared s i → entry.active = true ∧ entry.dstPort = (s.reroutes i).dstPort) :
    Serving t := by
  have hclaimed : entry.active = true → Applied t entry.dstPort := by
    intro hact
    refine ⟨i, ?_, ?_, h.claimed hok hact⟩
    · rw [h.rules, Function.update_self]
      exact hact
    · rw [h.rules, Function.update_self]
  intro j hj
  rw [h.rules] at hj ⊢
  by_cases hji : j = i
  · rw [hji, Function.update_self] at hj ⊢
    exact hclaimed hj
  · rw [Function.update_of_ne hji] at hj ⊢
    by_cases hnew : entry.active = true ∧ entry.dstPort = (s.reroutes j).dstPort
    · rw [← hnew.2]
      exact hclaimed hnew.1
    · have hold : ¬((s.reroutes i).active = true ∧
          (s.reroutes i).dstPort = (s.reroutes j).dstPort) := by
        rintro ⟨hact, hport⟩
        have hkeep := hsafe ⟨hact, j, hji, hj, hport.symm⟩
        exact hnew ⟨hkeep.1, hkeep.2.trans hport⟩
      obtain ⟨k, hk, hkport, hhandles⟩ := hs j hj
      have hki : k ≠ i := by
        rintro rfl
        exact hold ⟨hk, hkport⟩
      refine ⟨k, ?_, ?_, ?_⟩
      · rwa [h.rules, Function.update_of_ne hki]
      · rwa [h.rules, Function.update_of_ne hki]
      · rwa [Handles, h.kept _ hnew hold]

/-- A shared port without its handler leaves a rule that is not applied. -/
theorem Wrote.stranded (h : Wrote s i entry ok t) (hshared : Shared s i)
    (hmove : ¬(entry.active = true ∧ entry.dstPort = (s.reroutes i).dstPort)) :
    ∃ j, (t.reroutes j).active = true ∧ ¬Applied t (t.reroutes j).dstPort := by
  obtain ⟨hact, j, hji, hj, hport⟩ := hshared
  have hsame : t.reroutes j = s.reroutes j := by rw [h.rules, Function.update_of_ne hji]
  refine ⟨j, hsame ▸ hj, ?_⟩
  rw [hsame, hport]
  rintro ⟨k, -, -, hk⟩
  rw [Handles, h.dropped hact hmove] at hk
  cases hk

/-- Only packets of the old handler and of the new rule are affected. -/
theorem Wrote.deliver (h : Wrote s i entry ok t) (hs : Serving s)
    (hsafe : Shared s i → entry.active = true ∧ entry.dstPort = (s.reroutes i).dstPort)
    {port src : UInt8} (hne : t.deliver port src ≠ s.deliver port src) :
    Handles s i port ∨ entry.active = true ∧ entry.dstPort = port := by
  by_cases hnew : entry.active = true ∧ entry.dstPort = port
  · exact .inr hnew
  · left
    by_cases hold : (s.reroutes i).active = true ∧ (s.reroutes i).dstPort = port
    · obtain ⟨hact, rfl⟩ := hold
      obtain ⟨k, hk, hkport, hhandles⟩ := hs i hact
      by_cases hki : k = i
      · exact hki ▸ hhandles
      · exact absurd (hsafe ⟨hact, k, hki, hk, hkport⟩) hnew
    · by_contra hnot
      refine hne (deliver_congr (h.kept port hnew hold) ?_ src)
      intro j hj
      have hji : j ≠ i := by
        rintro rfl
        exact hnot hj
      rw [h.rules, Function.update_of_ne hji]

end Write

/-- A rule that is applied makes room for another when it goes. -/
theorem dropRule_room (hserv : Serving s) {i : Fin rerouteMax}
    (hact : (s.reroutes i).active = true) (entry : Reroute) (port : UInt8) :
    ¬Full ((s.dropRule i).1.setRule i entry) port := by
  obtain ⟨k, -, -, hk⟩ := hserv i hact
  rintro ⟨-, hfree⟩
  cases hfind : findPort s.handlers (s.reroutes i).dstPort with
  | none =>
    rw [Handles, dispatch_unserved (findPort_none hfind)] at hk
    cases hk
  | some j =>
    have hzero : ((s.dropRule i).1.setRule i entry).handlers j = zeroHandler := by
      have hsame : ((s.dropRule i).1.setRule i entry).handlers = (s.dropRule i).1.handlers := rfl
      rw [hsame, Csp.dropRule, if_pos hact, handlerClear_handlers hfind, Function.update_self]
    have hnone := List.find?_eq_none.1 hfree j (List.mem_finRange j)
    rw [hzero] at hnone
    exact hnone rfl

theorem dropRule_idle {i : Fin rerouteMax} (hact : (s.reroutes i).active = false)
    (entry : Reroute) (port : UInt8) :
    Full ((s.dropRule i).1.setRule i entry) port ↔ Full s port := by
  have hsame : ((s.dropRule i).1.setRule i entry).handlers = s.handlers := by
    rw [Csp.dropRule, hact]
    rfl
  rw [Full, Full, hsame]

/-- While all active rules are applied, `meow_csp_reroute_set` fails exactly for a new active rule
without a slot. -/
theorem rerouteSet_fails_iff (hs : Tidy s) (hserv : Serving s) {idx : UInt8}
    (h : idx.toNat < rerouteMax) (entry : Reroute) :
    s.answer (.rerouteSet idx (some entry)) ≠ .ok ↔
      (s.reroutes ⟨idx.toNat, h⟩).active = false ∧ entry.active = true ∧
        Full s entry.dstPort := by
  refine (rerouteSet_wrote hs h entry).2.trans ?_
  cases hact : (s.reroutes ⟨idx.toNat, h⟩).active with
  | true =>
    have hroom := dropRule_room hserv hact entry entry.dstPort
    exact ⟨fun hf => absurd hf.2 hroom, fun hf => absurd hf.1 (by decide)⟩
  | false =>
    rw [dropRule_idle hact]
    exact ⟨fun hf => ⟨rfl, hf⟩, fun hf => hf.2⟩

theorem rerouteClear_wrote (hs : Tidy s) {idx : UInt8} (h : idx.toNat < rerouteMax) :
    Wrote s ⟨idx.toNat, h⟩ zeroReroute True (s.rerouteClear idx).1 := by
  have heq : (s.rerouteClear idx).1 =
      (s.dropRule ⟨idx.toNat, h⟩).1.setRule ⟨idx.toNat, h⟩ zeroReroute := by
    rw [Csp.rerouteClear, dif_pos h]
  rw [heq]
  exact setRule_wrote hs _ zeroReroute fun _ => rfl

theorem rerouteSet_refused {idx : UInt8} {entry : Option Reroute}
    (h : entry = none ∨ ¬idx.toNat < rerouteMax) : (s.rerouteSet idx entry).1 = s := by
  cases entry with
  | none => rfl
  | some entry => rw [Csp.rerouteSet, dif_neg (h.resolve_left (by simp))]

theorem rerouteClear_refused {idx : UInt8} (h : ¬idx.toNat < rerouteMax) :
    (s.rerouteClear idx).1 = s := by
  rw [Csp.rerouteClear, dif_neg h]

theorem zeroReroute_inactive {port : UInt8} :
    ¬(zeroReroute.active = true ∧ zeroReroute.dstPort = port) :=
  fun h => absurd h.1 (by decide)

/-- A call that strands no rule and meddles with none keeps all active rules applied. -/
theorem act_serving (hs : Tidy s) (hserv : Serving s) {op : Op} (hstrand : ¬Strands s op)
    (hmeddle : ¬Meddles s op) : Serving (s.act op).1 := by
  have huser : ∀ port, op.port? = some port → Serving (s.act op).1 := by
    intro port hport
    obtain ⟨hrules, hdisp⟩ := act_dispatch hs hport
    intro i hi
    rw [hrules] at hi ⊢
    obtain ⟨k, hk, hkport, hhandles⟩ := hserv i hi
    refine ⟨k, by rwa [hrules], by rwa [hrules], ?_⟩
    rcases hdisp (s.reroutes i).dstPort with hsame | ⟨hok, heq⟩
    · rwa [Handles, hsame]
    · exact absurd ⟨hok, port, hport, i, hi, heq⟩ hmeddle
  cases op with
  | handlerSet port fn ctx => exact huser port rfl
  | handlerLoad port path symbol load lookup => exact huser port rfl
  | handlerClear port => exact huser port rfl
  | rerouteSet idx entry =>
    by_cases harg : entry = none ∨ ¬idx.toNat < rerouteMax
    · have hsame : (s.act (.rerouteSet idx entry)).1 = s := rerouteSet_refused harg
      rw [hsame]
      exact hserv
    · rw [not_or, not_not] at harg
      obtain ⟨entry, rfl⟩ := Option.ne_none_iff_exists'.1 harg.1
      have hok : s.answer (.rerouteSet idx (some entry)) = .ok := by
        by_contra hfail
        exact hstrand ⟨harg.2, .inr ((rerouteSet_fails_iff hs hserv harg.2 entry).1 hfail)⟩
      refine (rerouteSet_wrote hs harg.2 entry).1.serving hserv hok fun hshared => ?_
      by_contra hmove
      exact hstrand ⟨harg.2, .inl ⟨hshared, hmove⟩⟩
  | rerouteClear idx =>
    by_cases hidx : idx.toNat < rerouteMax
    · refine (rerouteClear_wrote hs hidx).serving hserv trivial fun hshared => ?_
      exact absurd ⟨hidx, hshared⟩ hstrand
    · have hsame : (s.act (.rerouteClear idx)).1 = s := rerouteClear_refused hidx
      rw [hsame]
      exact hserv

/-- Nor does it matter to packets of other rules. -/
theorem act_deliver (hs : Tidy s) (hserv : Serving s) {op : Op} (hstrand : ¬Strands s op) {n : Nat}
    (hop : op.rule? = some n) {port src : UInt8}
    (hne : (s.act op).1.deliver port src ≠ s.deliver port src) :
    (∃ i : Fin rerouteMax, i.val = n ∧ Handles s i port) ∨ op.Claims port := by
  cases op with
  | handlerSet => cases hop
  | handlerLoad => cases hop
  | handlerClear => cases hop
  | rerouteSet idx entry =>
    cases hop
    by_cases harg : entry = none ∨ ¬idx.toNat < rerouteMax
    · have hsame : (s.act (.rerouteSet idx entry)).1 = s := rerouteSet_refused harg
      rw [hsame] at hne
      exact absurd rfl hne
    · rw [not_or, not_not] at harg
      obtain ⟨entry, rfl⟩ := Option.ne_none_iff_exists'.1 harg.1
      have hsafe : Shared s ⟨idx.toNat, harg.2⟩ → entry.active = true ∧
          entry.dstPort = (s.reroutes ⟨idx.toNat, harg.2⟩).dstPort := by
        intro hshared
        by_contra hmove
        exact hstrand ⟨harg.2, .inl ⟨hshared, hmove⟩⟩
      rcases (rerouteSet_wrote hs harg.2 entry).1.deliver hserv hsafe hne with h | h
      · exact .inl ⟨_, rfl, h⟩
      · exact .inr h
  | rerouteClear idx =>
    cases hop
    by_cases hidx : idx.toNat < rerouteMax
    · have hsafe : Shared s ⟨idx.toNat, hidx⟩ → zeroReroute.active = true ∧
          zeroReroute.dstPort = (s.reroutes ⟨idx.toNat, hidx⟩).dstPort :=
        fun hshared => absurd ⟨hidx, hshared⟩ hstrand
      rcases (rerouteClear_wrote hs hidx).deliver hserv hsafe hne with h | h
      · exact .inl ⟨_, rfl, h⟩
      · exact absurd h zeroReroute_inactive
    · have hsame : (s.act (.rerouteClear idx)).1 = s := rerouteClear_refused hidx
      rw [hsame] at hne
      exact absurd rfl hne

/-! ## Runs -/

/-- All active rules were accepted and are applied. -/
structure Good (st : Csp × Accepted) : Prop where
  tidy : Tidy st.1
  serving : Serving st.1
  accepted : ∀ i, (st.1.reroutes i).active = true → st.2 i = true

theorem after_snoc (pre : List Op) (op : Op) :
    after (pre ++ [op]) = (((after pre).1.act op).1,
      accept (after pre).2 op ((after pre).1.answer op)) := by
  rw [after, Machine.run_append]
  rfl

theorem act_tidy (hs : Tidy s) (op : Op) : Tidy (s.act op).1 :=
  (act_moves hs op).keeps (fun _ _ _ hm => hm.tidy) hs

theorem after_nil_good : Good (after []) := by
  refine ⟨(csp_tidy []).1, ?_, ?_⟩
  · intro i hi
    exact absurd hi (by simp [after, Machine.run, cspStart, zeroReroute])
  · intro i hi
    exact absurd hi (by simp [after, Machine.run, cspStart, zeroReroute])

/-- The rules that a call leaves active are accepted, if a call that fails leaves none. -/
theorem act_accepted {st : Csp × Accepted} (h : Good st) {op : Op}
    (hfail : ∀ idx entry, op = .rerouteSet idx (some entry) → st.1.answer op ≠ .ok →
      ∀ i : Fin rerouteMax, i.val = idx.toNat → ((st.1.act op).1.reroutes i).active = false)
    (i : Fin rerouteMax) (hi : ((st.1.act op).1.reroutes i).active = true) :
    accept st.2 op (st.1.answer op) i = true := by
  have huser : ∀ port, op.port? = some port → st.2 i = true := by
    intro port hport
    rw [(act_dispatch h.tidy hport).1] at hi
    exact h.accepted i hi
  cases op with
  | handlerSet port fn ctx => exact huser port rfl
  | handlerLoad port path symbol load lookup => exact huser port rfl
  | handlerClear port => exact huser port rfl
  | rerouteSet idx entry =>
    cases entry with
    | none => exact h.accepted i hi
    | some entry =>
      rw [accept]
      split
      · rename_i hidx
        by_contra hne
        rw [beq_iff_eq] at hne
        exact absurd (hi.symm.trans (hfail idx entry rfl hne i hidx.symm)) (by decide)
      · rename_i hidx
        by_cases hrange : idx.toNat < rerouteMax
        · have hrules := (rerouteSet_wrote h.tidy hrange entry).1.rules
          have hne : i ≠ ⟨idx.toNat, hrange⟩ := fun heq => hidx (congrArg Fin.val heq).symm
          have hsame : ((st.1.act (.rerouteSet idx (some entry))).1.reroutes i) =
              st.1.reroutes i :=
            (congrFun hrules i).trans (Function.update_of_ne hne _ _)
          rw [hsame] at hi
          exact h.accepted i hi
        · have hsame : (st.1.act (.rerouteSet idx (some entry))).1 = st.1 :=
            rerouteSet_refused (.inr hrange)
          rw [hsame] at hi
          exact h.accepted i hi
  | rerouteClear idx =>
    by_cases hrange : idx.toNat < rerouteMax
    · have hrules : (st.1.act (.rerouteClear idx)).1.reroutes i =
          Function.update st.1.reroutes ⟨idx.toNat, hrange⟩ zeroReroute i :=
        congrFun (rerouteClear_wrote h.tidy hrange).rules i
      rw [hrules] at hi
      by_cases hidx : i = ⟨idx.toNat, hrange⟩
      · rw [hidx, Function.update_self] at hi
        exact absurd hi (by decide)
      · rw [Function.update_of_ne hidx] at hi
        exact h.accepted i hi
    · have hsame : (st.1.act (.rerouteClear idx)).1 = st.1 := rerouteClear_refused hrange
      rw [hsame] at hi
      exact h.accepted i hi

/-- A call that fails for want of a slot writes its rule all the same. -/
theorem rerouteSet_failed (h : Tidy s) (hserv : Serving s) {idx : UInt8} {entry : Reroute}
    {i : Fin rerouteMax} (hi : i.val = idx.toNat)
    (hfail : s.answer (.rerouteSet idx (some entry)) ≠ .ok) :
    (s.reroutes i).active = false ∧
      ((s.act (.rerouteSet idx (some entry))).1.reroutes i).active = true := by
  have hrange : idx.toNat < rerouteMax := hi ▸ i.isLt
  obtain rfl : i = ⟨idx.toNat, hrange⟩ := Fin.ext hi
  obtain ⟨hold, hact, -⟩ := (rerouteSet_fails_iff h hserv hrange entry).1 hfail
  have hrules : ((s.act (.rerouteSet idx (some entry))).1.reroutes ⟨idx.toNat, hrange⟩) = entry :=
    (congrFun (rerouteSet_wrote h hrange entry).1.rules _).trans (Function.update_self ..)
  exact ⟨hold, by rw [hrules, hact]⟩

theorem good_of_not_strands {ops : List Op}
    (hmeddle : ∀ pre op, pre ++ [op] <+: ops → ¬Meddles (after pre).1 op)
    (h : ∀ pre op, pre ++ [op] <+: ops → ¬Strands (after pre).1 op) (pre : List Op) :
    pre <+: ops → Good (after pre) := by
  induction pre using List.reverseRecOn with
  | nil => exact fun _ => after_nil_good
  | append_singleton pre op ih =>
    intro hpre
    have hgood := ih ((List.prefix_append pre [op]).trans hpre)
    rw [after_snoc]
    refine ⟨act_tidy hgood.tidy op, ?_, ?_⟩
    · exact act_serving hgood.tidy hgood.serving (h pre op hpre) (hmeddle pre op hpre)
    · refine act_accepted hgood fun idx entry hop hfail i hi => ?_
      rw [hop] at hfail
      have hrange : idx.toNat < rerouteMax := hi ▸ i.isLt
      have hwhy := (rerouteSet_fails_iff hgood.tidy hgood.serving hrange entry).1 hfail
      refine absurd ?_ (h pre op hpre)
      rw [hop]
      exact ⟨hrange, .inr hwhy⟩

theorem good_of_agree {ops : List Op} (h : Agree ops) (pre : List Op) :
    pre <+: ops → Good (after pre) := by
  induction pre using List.reverseRecOn with
  | nil => exact fun _ => after_nil_good
  | append_singleton pre op ih =>
    intro hpre
    have hgood := ih ((List.prefix_append pre [op]).trans hpre)
    have haccepted : ∀ i, ((after (pre ++ [op])).1.reroutes i).active = true →
        (after (pre ++ [op])).2 i = true := by
      rw [after_snoc]
      refine act_accepted hgood fun idx entry hop hfail i hi => ?_
      rw [hop] at hpre hfail ⊢
      obtain ⟨hold, hnew⟩ := rerouteSet_failed hgood.tidy hgood.serving hi hfail
      rcases h.refused pre idx (some entry) hpre hfail with hsame | hoff
      · rw [after_snoc] at hsame
        rw [hsame, hold] at hnew
        cases hnew
      · have hi' := hoff i hi
        rw [after_snoc] at hi'
        exact hi'
    refine ⟨?_, fun i hi => h.applied _ hpre i hi (haccepted i hi), haccepted⟩
    rw [after_snoc]
    exact act_tidy hgood.tidy op

/-- A call that writes a rule is no call of the handler table. -/
theorem not_meddles {op : Op} {n : Nat} (h : op.rule? = some n) : ¬Meddles s op := by
  rintro ⟨-, port, hport, -⟩
  cases op with
  | handlerSet => cases h
  | handlerLoad => cases h
  | handlerClear => cases h
  | rerouteSet => cases hport
  | rerouteClear => cases hport

end Meow
end FlightApps
