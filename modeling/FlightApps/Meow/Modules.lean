import Mathlib.Data.List.Nodup
import FlightApps.Lib.Table
import FlightApps.Meow.Csp

/-!
# Who owns the modules

A loaded module belongs to one slot of the handler table, and it has to be unloaded once and only
when the slot stops using it.  `Tidy` is what holds of the table and of the loaded modules in every
run: one active slot for each port, one owner for each loaded module, and no function from a module
that its slot does not own.  `replay` goes through the loads and unloads of a run and fails at a
module that is unloaded while it is not loaded.

What can go wrong is the other direction.  `meow_csp_handler_set` on a port with a loaded handler
puts in the new function but keeps the module, so that from then on the slot owns a module it does
not use.  `modules_owned` says that this is the only way: the function of every slot with a module
is from that module in all of a run exactly if no step of it `Displaces` a loaded handler.

Every call is a few changes to the table, `Move`, and the invariants are proved for these.
-/

set_option autoImplicit false

namespace FlightApps
namespace Meow

/-! ## What holds of the table -/

/-- The module a slot owns. -/
def Handler.owned (h : Handler) : Option ModuleId :=
  if h.active && h.hasModule then some h.moduleId else none

theorem Handler.owned_eq_some {h : Handler} {m : ModuleId} :
    h.owned = some m ↔ h.active = true ∧ h.hasModule = true ∧ h.moduleId = m := by
  rw [Handler.owned]
  split
  · rename_i hif
    rw [Bool.and_eq_true] at hif
    rw [Option.some_inj]
    exact ⟨fun hm => ⟨hif.1, hif.2, hm⟩, fun hm => hm.2.2⟩
  · rename_i hif
    refine ⟨fun hm => absurd hm (by simp), fun hm => absurd ?_ hif⟩
    rw [hm.1, hm.2.1]
    rfl

theorem Handler.owned_of_not_active {h : Handler} (ha : h.active = false) : h.owned = none := by
  rw [Handler.owned, ha]
  rfl

theorem Handler.owned_of_active {h : Handler} (ha : h.active = true) :
    h.owned = if h.hasModule then some h.moduleId else none := by
  rw [Handler.owned, ha, Bool.true_and]

@[simp] theorem loadedHandler_owned (port : UInt8) (m : ModuleId) (addr : Addr) :
    (loadedHandler port m addr).owned = some m := rfl

@[simp] theorem zeroHandler_owned : zeroHandler.owned = none := rfl

/-- A slot is active for a port. -/
def Handler.Serves (h : Handler) (port : UInt8) : Prop := h.active = true ∧ h.port = port

/-- One active slot for each port, one owner for each loaded module, and no function from a module
that its slot does not own. -/
structure Tidy (s : Csp) : Prop where
  ports : ∀ i j port, (s.handlers i).Serves port → (s.handlers j).Serves port → i = j
  owners : ∀ m, m ∈ s.loaded ↔ ∃ i, (s.handlers i).owned = some m
  once : ∀ i j m, (s.handlers i).owned = some m → (s.handlers j).owned = some m → i = j
  source : ∀ i m a, (s.handlers i).active = true → (s.handlers i).fn = some (.symbol m a) →
    (s.handlers i).owned = some m
  nodup : s.loaded.Nodup

/-- Every slot with a module has a function from it. -/
def Matched (s : Csp) : Prop :=
  ∀ i m, (s.handlers i).owned = some m → ∃ a, (s.handlers i).fn = some (.symbol m a)

/-- The modules that are loaded after one more load or unload.  There are none to tell if a module
is loaded under an id in use, or unloaded while it is not loaded. -/
def Note.follow (loaded : List ModuleId) : Note → Option (List ModuleId)
  | .load m => if m ∈ loaded then none else some (m :: loaded)
  | .unload m => if m ∈ loaded then some (loaded.erase m) else none

/-- The modules that are loaded after a list of loads and unloads. -/
def replay (loaded : List ModuleId) (notes : List Note) : Option (List ModuleId) :=
  notes.foldlM Note.follow loaded

theorem replay_append (loaded : List ModuleId) (notes notes' : List Note) :
    replay loaded (notes ++ notes') = (replay loaded notes).bind (replay · notes') :=
  List.foldlM_append

theorem replay_load {loaded : List ModuleId} {m : ModuleId} (h : m ∉ loaded) (notes : List Note) :
    replay loaded (.load m :: notes) = replay (m :: loaded) notes := by
  rw [replay, List.foldlM_cons, Note.follow, if_neg h]
  rfl

theorem replay_unload {loaded : List ModuleId} {m : ModuleId} (h : m ∈ loaded)
    (notes : List Note) : replay loaded (.unload m :: notes) = replay (loaded.erase m) notes := by
  rw [replay, List.foldlM_cons, Note.follow, if_pos h]
  rfl

/-! ## Slots -/

theorem findPort_some {handlers : Slot → Handler} {port : UInt8} {i : Slot}
    (h : findPort handlers port = some i) : (handlers i).Serves port := by
  have hi := List.find?_some h
  rwa [Bool.and_eq_true, beq_iff_eq] at hi

theorem findPort_none {handlers : Slot → Handler} {port : UInt8}
    (h : findPort handlers port = none) (i : Slot) : ¬(handlers i).Serves port := by
  have hi := List.find?_eq_none.1 h i (List.mem_finRange i)
  rwa [Bool.and_eq_true, beq_iff_eq] at hi

theorem findFree_some {handlers : Slot → Handler} {i : Slot} (h : findFree handlers = some i) :
    (handlers i).active = false := by
  have hi := List.find?_some h
  rwa [Bool.not_eq_true'] at hi

/-- No other slot serves a port. -/
def Sole (s : Csp) (i : Slot) (port : UInt8) : Prop :=
  ∀ j, j ≠ i → ¬(s.handlers j).Serves port

theorem Tidy.sole {s : Csp} (h : Tidy s) {i : Slot} {port : UInt8}
    (hi : (s.handlers i).Serves port) : Sole s i port :=
  fun j hne hj => hne (h.ports j i port hj hi)

theorem sole_of_findPort_none {s : Csp} {port : UInt8} (h : findPort s.handlers port = none)
    (i : Slot) : Sole s i port :=
  fun j _ => findPort_none h j

theorem Tidy.congr {s t : Csp} (h : Tidy s) (hh : t.handlers = s.handlers)
    (hl : t.loaded = s.loaded) : Tidy t := by
  refine ⟨?_, ?_, ?_, ?_, ?_⟩
  · rw [hh]; exact h.ports
  · rw [hh, hl]; exact h.owners
  · rw [hh]; exact h.once
  · rw [hh]; exact h.source
  · rw [hl]; exact h.nodup

theorem Matched.congr {s t : Csp} (h : Matched s) (hh : t.handlers = s.handlers) : Matched t := by
  rw [Matched, hh]
  exact h

/-- A new handler in one slot, with what it means for the loaded modules. -/
theorem Tidy.put {s t : Csp} (h : Tidy s) {i : Slot} {x : Handler}
    (ht : t.handlers = Function.update s.handlers i x) (hnodup : t.loaded.Nodup)
    (hsole : ∀ port, x.Serves port → Sole s i port)
    (howners : ∀ m, m ∈ t.loaded ↔
      x.owned = some m ∨ ∃ j, j ≠ i ∧ (s.handlers j).owned = some m)
    (honce : ∀ m, x.owned = some m → ∀ j, j ≠ i → (s.handlers j).owned ≠ some m)
    (hsource : ∀ m a, x.active = true → x.fn = some (.symbol m a) → x.owned = some m) :
    Tidy t := by
  refine ⟨?_, ?_, ?_, ?_, hnodup⟩
  · have hports : Table.OneSlot Handler.Serves s.handlers := h.ports
    rw [ht]
    exact hports.update hsole
  · intro m
    rw [howners m, ht]
    constructor
    · rintro (hx | ⟨j, hj, hown⟩)
      · exact ⟨i, by rwa [Function.update_self]⟩
      · exact ⟨j, by rwa [Function.update_of_ne hj]⟩
    · rintro ⟨j, hown⟩
      by_cases hj : j = i
      · rw [hj, Function.update_self] at hown
        exact .inl hown
      · rw [Function.update_of_ne hj] at hown
        exact .inr ⟨j, hj, hown⟩
  · have hmodules : Table.OneSlot (fun x m => x.owned = some m) s.handlers := h.once
    rw [ht]
    exact hmodules.update honce
  · rw [ht]
    refine (Function.forall_update_iff s.handlers
      (p := fun _ x => ∀ m a, x.active = true → x.fn = some (.symbol m a) →
        x.owned = some m)).2 ⟨hsource, fun j _ => h.source j⟩

theorem Matched.put {s t : Csp} (h : Matched s) {i : Slot} {x : Handler}
    (ht : t.handlers = Function.update s.handlers i x)
    (hx : ∀ m, x.owned = some m → ∃ a, x.fn = some (.symbol m a)) : Matched t := by
  intro j m hown
  by_cases hj : j = i
  · rw [ht, hj, Function.update_self] at hown ⊢
    exact hx m hown
  · rw [ht, Function.update_of_ne hj] at hown ⊢
    exact h j m hown

theorem Tidy.mem_loaded {s : Csp} (h : Tidy s) (i : Slot) (m : ModuleId) :
    m ∈ s.loaded ↔
      (s.handlers i).owned = some m ∨ ∃ j, j ≠ i ∧ (s.handlers j).owned = some m := by
  rw [h.owners]
  constructor
  · rintro ⟨j, hown⟩
    by_cases hj : j = i
    · exact .inl (hj ▸ hown)
    · exact .inr ⟨j, hj, hown⟩
  · rintro (hown | ⟨j, -, hown⟩)
    · exact ⟨i, hown⟩
    · exact ⟨j, hown⟩

/-- The modules of the other slots. -/
theorem Tidy.mem_others {s : Csp} (h : Tidy s) (i : Slot) (m : ModuleId) :
    (m ∈ s.loaded ∧ m ∉ (s.handlers i).owned.toList) ↔
      ∃ j, j ≠ i ∧ (s.handlers j).owned = some m := by
  rw [h.mem_loaded i m, Option.mem_toList]
  constructor
  · rintro ⟨hown | hother, hne⟩
    · exact absurd hown hne
    · exact hother
  · rintro ⟨j, hj, hown⟩
    exact ⟨.inr ⟨j, hj, hown⟩, fun hi => hj (h.once j i m hown hi)⟩

/-! ## Moves -/

/-- The module of a handler that goes is unloaded. -/
def Handler.release (h : Handler) : List Note := h.owned.toList.map .unload

/-- The modules that stay when a handler goes. -/
def Handler.rest (h : Handler) (loaded : List ModuleId) : List ModuleId :=
  loaded.diff h.owned.toList

theorem Handler.release_some {h : Handler} {m : ModuleId} (hown : h.owned = some m) :
    h.release = [.unload m] := by
  rw [Handler.release, hown]
  rfl

theorem Handler.release_none {h : Handler} (hown : h.owned = none) : h.release = [] := by
  rw [Handler.release, hown]
  rfl

theorem Handler.rest_some {h : Handler} {m : ModuleId} (hown : h.owned = some m)
    (loaded : List ModuleId) : h.rest loaded = loaded.erase m := by
  rw [Handler.rest, hown, Option.toList_some, List.diff_cons, List.diff_nil]

theorem Handler.rest_none {h : Handler} (hown : h.owned = none) (loaded : List ModuleId) :
    h.rest loaded = loaded := by
  rw [Handler.rest, hown, Option.toList_none, List.diff_nil]

theorem replay_release {loaded : List ModuleId} {h : Handler}
    (hmem : ∀ m, h.owned = some m → m ∈ loaded) :
    replay loaded h.release = some (h.rest loaded) := by
  cases hown : h.owned with
  | none =>
    rw [Handler.release_none hown, Handler.rest_none hown]
    rfl
  | some m =>
    rw [Handler.release_some hown, Handler.rest_some hown, replay_unload (hmem m hown)]
    rfl

/-- What the calls do to the table and to the modules.  `p` is asked of a handler whose function is
exchanged while its module stays. -/
inductive Move (p : Handler → Prop) : Csp → List Note → Csp → Prop
  /-- Something else changes. -/
  | aside {s t : Csp} (hh : t.handlers = s.handlers) (hl : t.loaded = s.loaded) : Move p s [] t
  /-- A module is loaded and found to be of no use. -/
  | abandon {s t : Csp} {m : ModuleId} (hm : m ∉ s.loaded) (hh : t.handlers = s.handlers)
      (hl : t.loaded = s.loaded) : Move p s [.load m, .unload m] t
  /-- An active handler gets a new function. -/
  | rebind {s t : Csp} {i : Slot} {port : UInt8} {fn : Option Fn} {ctx : Ctx}
      (hi : (s.handlers i).Serves port) (hp : p (s.handlers i))
      (hfn : ∀ m a, fn ≠ some (.symbol m a))
      (hh : t.handlers = Function.update s.handlers i { s.handlers i with fn := fn, ctx := ctx })
      (hl : t.loaded = s.loaded) : Move p s [] t
  /-- A free slot gets a handler. -/
  | register {s t : Csp} {i : Slot} {port : UInt8} {fn : Option Fn} {ctx : Ctx}
      (hi : (s.handlers i).active = false) (hsole : Sole s i port)
      (hfn : ∀ m a, fn ≠ some (.symbol m a))
      (hh : t.handlers = Function.update s.handlers i
        { s.handlers i with port := port, fn := fn, ctx := ctx, hasModule := false,
                            active := true })
      (hl : t.loaded = s.loaded) : Move p s [] t
  /-- A slot gets a loaded handler, and the module it had is unloaded. -/
  | load {s t : Csp} {i : Slot} {port : UInt8} {m : ModuleId} {addr : Addr} (hm : m ∉ s.loaded)
      (hsole : Sole s i port)
      (hh : t.handlers = Function.update s.handlers i (loadedHandler port m addr))
      (hl : t.loaded = (s.handlers i).rest (m :: s.loaded)) :
      Move p s (.load m :: (s.handlers i).release) t
  /-- A handler goes, and with it its module. -/
  | drop {s t : Csp} {i : Slot} (hh : t.handlers = Function.update s.handlers i zeroHandler)
      (hl : t.loaded = (s.handlers i).rest s.loaded) :
      Move p s (s.handlers i).release t

variable {p : Handler → Prop} {s t : Csp} {notes : List Note}

theorem Move.tidy (h : Move p s notes t) (hs : Tidy s) : Tidy t := by
  cases h with
  | aside hh hl => exact hs.congr hh hl
  | abandon _ hh hl => exact hs.congr hh hl
  | @rebind _ i port fn ctx hi _ hfn hh hl =>
    refine hs.put hh (hl ▸ hs.nodup) (fun q hq => hs.sole hq) ?_ ?_ ?_
    · intro m
      rw [hl]
      exact hs.mem_loaded i m
    · intro m hown j hj hown'
      exact hj (hs.once j i m hown' hown)
    · intro m a _ hsym
      exact absurd hsym (hfn m a)
  | @register _ i port fn ctx hi hsole hfn hh hl =>
    refine hs.put hh (hl ▸ hs.nodup) ?_ ?_ ?_ ?_
    · rintro q ⟨-, rfl⟩
      exact hsole
    · intro m
      rw [hl, hs.mem_loaded i m, Handler.owned_of_not_active hi]
      rfl
    · intro m hown
      exact absurd hown (by simp [Handler.owned])
    · intro m a _ hsym
      exact absurd hsym (hfn m a)
  | @load _ i port m addr hm hsole hh hl =>
    have hnodup : (m :: s.loaded).Nodup := List.nodup_cons.2 ⟨hm, hs.nodup⟩
    have hnew : ∀ j, (s.handlers j).owned ≠ some m :=
      fun j hown => hm ((hs.owners m).2 ⟨j, hown⟩)
    refine hs.put hh (hl ▸ hnodup.diff) ?_ ?_ ?_ ?_
    · rintro q ⟨-, rfl⟩
      exact hsole
    · intro m'
      rw [hl, Handler.rest, hnodup.mem_sdiff_iff, List.mem_cons, or_and_right, hs.mem_others i m',
        loadedHandler_owned, Option.some_inj]
      refine or_congr_left ⟨fun heq => heq.1.symm, fun heq => ⟨heq.symm, ?_⟩⟩
      rw [Option.mem_toList, ← heq]
      exact hnew i
    · intro m' hown j _
      rw [loadedHandler_owned] at hown
      rw [← hown]
      exact hnew j
    · intro m' a _ hsym
      cases hsym
      rfl
  | @drop _ i hh hl =>
    refine hs.put hh (hl ▸ hs.nodup.diff) ?_ ?_ ?_ ?_
    · rintro q ⟨hq, -⟩
      exact absurd hq (by decide)
    · intro m
      rw [hl, Handler.rest, hs.nodup.mem_sdiff_iff, hs.mem_others i m, zeroHandler_owned]
      exact ⟨.inr, fun h => h.resolve_left (by simp)⟩
    · intro m hown
      exact absurd hown (by simp)
    · intro m a hq
      exact absurd hq (by decide)

/-- The notes of a move are its loads and unloads, and none of them fails. -/
theorem Move.replay (h : Move p s notes t) (hs : Tidy s) :
    Meow.replay s.loaded notes = some t.loaded := by
  have hmem : ∀ i m, (s.handlers i).owned = some m → m ∈ s.loaded :=
    fun i m hown => (hs.owners m).2 ⟨i, hown⟩
  cases h with
  | aside _ hl => rw [hl]; rfl
  | abandon hm _ hl =>
    rw [replay_load hm, replay_unload List.mem_cons_self, List.erase_cons_head, hl]
    rfl
  | rebind _ _ _ _ hl => rw [hl]; rfl
  | register _ _ _ _ hl => rw [hl]; rfl
  | @load _ i port m addr hm _ _ hl =>
    rw [replay_load hm, hl]
    exact replay_release fun m' hown => List.mem_cons_of_mem m (hmem i m' hown)
  | @drop _ i _ hl =>
    rw [hl]
    exact replay_release (hmem i)

/-- A move that does not part a function from its module keeps the two together. -/
theorem Move.matched (h : Move p s notes t) (hp : ∀ x, p x → x.owned = none) (hs : Matched s) :
    Matched t := by
  cases h with
  | aside hh _ => exact hs.congr hh
  | abandon _ hh _ => exact hs.congr hh
  | rebind _ hx _ hh _ =>
    refine hs.put hh fun m hown => absurd ((hp _ hx).symm.trans hown) (by simp)
  | register _ _ _ hh _ =>
    exact hs.put hh fun m hown => absurd hown (by simp [Handler.owned])
  | @load _ i port m addr _ _ hh _ =>
    refine hs.put hh fun m' hown => ⟨addr, ?_⟩
    cases hown
    rfl
  | drop hh _ => exact hs.put hh fun m hown => absurd hown (by simp)

/-! ## The calls -/

/-- A port is served by a handler with a module. -/
def Owns (s : Csp) (port : UInt8) : Prop :=
  ∃ i, (s.handlers i).Serves port ∧ (s.handlers i).hasModule = true

/-- A call that exchanges the function of a handler with a module.  The rule that
`meow_csp_reroute_set` replaces takes its own handler with it. -/
def Displaces (s : Csp) : Op → Prop
  | .handlerSet port fn _ => fn ≠ none ∧ Owns s port
  | .rerouteSet idx (some entry) => ∃ h : idx.toNat < rerouteMax, entry.active = true ∧
      Owns s entry.dstPort ∧ ¬((s.reroutes ⟨idx.toNat, h⟩).active = true ∧
        (s.reroutes ⟨idx.toNat, h⟩).dstPort = entry.dstPort)
  | _ => False

theorem owned_of_not_owns {port : UInt8} (h : ¬Owns s port) {i : Slot}
    (hi : (s.handlers i).Serves port) : (s.handlers i).owned = none := by
  rw [Handler.owned_of_active hi.1, if_neg]
  exact fun hm => h ⟨i, hi, hm⟩

theorem handlerSet_move {port : UInt8} {fn : Option Fn} {ctx : Ctx}
    (hfn : ∀ m a, fn ≠ some (.symbol m a))
    (hp : ∀ i, (s.handlers i).Serves port → p (s.handlers i)) :
    Move p s [] (s.handlerSet port fn ctx).1 := by
  rw [Csp.handlerSet]
  split
  · exact .aside rfl rfl
  · split
    · rename_i i hi
      exact .rebind (findPort_some hi) (hp i (findPort_some hi)) hfn rfl rfl
    · rename_i hnone
      split
      · exact .aside rfl rfl
      · rename_i i hi
        exact .register (findFree_some hi) (sole_of_findPort_none hnone i) hfn rfl rfl

theorem attach_move (hs : Tidy s) {port : UInt8} {m : ModuleId} (hm : m ∉ s.loaded)
    (addr : Addr) :
    Move p s (.load m :: (({ s with loaded := m :: s.loaded } : Csp).attach port m addr).2.2)
      (({ s with loaded := m :: s.loaded } : Csp).attach port m addr).1 := by
  have hload : ∀ (i : Slot) (t : Csp) (notes : List Note), Sole s i port →
      t.handlers = Function.update s.handlers i (loadedHandler port m addr) →
      notes = (s.handlers i).release → t.loaded = (s.handlers i).rest (m :: s.loaded) →
      Move p s (.load m :: notes) t := by
    intro i t notes hsole hh hnotes hl
    rw [hnotes]
    exact .load hm hsole hh hl
  rw [Csp.attach]
  split
  · rename_i i hi
    have hserves : (s.handlers i).Serves port := findPort_some hi
    have hown := Handler.owned_of_active hserves.1
    split
    · rename_i hmod
      have hsome := hown.trans (if_pos hmod)
      exact hload i _ _ (hs.sole hserves) rfl (Handler.release_some hsome).symm
        (Handler.rest_some hsome _).symm
    · rename_i hmod
      have hnone := hown.trans (if_neg hmod)
      exact hload i _ _ (hs.sole hserves) rfl (Handler.release_none hnone).symm
        (Handler.rest_none hnone _).symm
  · rename_i hnone
    split
    · refine .abandon hm rfl ?_
      exact List.erase_cons_head m s.loaded
    · rename_i i hi
      have hfree := Handler.owned_of_not_active (findFree_some hi)
      exact hload i _ _ (sole_of_findPort_none hnone i) rfl (Handler.release_none hfree).symm
        (Handler.rest_none hfree _).symm

theorem osModuleLoad_new {loaded : List ModuleId} {load : Except Int32 ModuleId} {m : ModuleId}
    (h : osModuleLoad loaded load = .ok m) : m ∉ loaded := by
  cases load with
  | error err => cases h
  | ok m' =>
    rw [osModuleLoad] at h
    split at h
    · cases h
    · rename_i hnew
      cases h
      exact hnew

theorem handlerLoad_move (hs : Tidy s) (port : UInt8) (path symbol : Option String)
    (load : Except Int32 ModuleId) (lookup : Except Int32 Addr) :
    Move p s (s.handlerLoad port path symbol load lookup).2.2
      (s.handlerLoad port path symbol load lookup).1 := by
  rw [Csp.handlerLoad]
  split
  · exact .aside rfl rfl
  · split
    · exact .aside rfl rfl
    · rename_i m hload
      have hnew := osModuleLoad_new hload
      cases lookup with
      | error err =>
        refine .abandon hnew rfl ?_
        exact List.erase_cons_head m s.loaded
      | ok addr => exact attach_move hs hnew addr

theorem handlerClear_handlers {port : UInt8} {i : Slot} (hi : findPort s.handlers port = some i) :
    (s.handlerClear port).1.handlers = Function.update s.handlers i zeroHandler := by
  simp only [Csp.handlerClear, hi]
  split
  · rfl
  · rfl

theorem handlerClear_move (s : Csp) (port : UInt8) :
    Move p s (s.handlerClear port).2 (s.handlerClear port).1 := by
  rw [Csp.handlerClear]
  split
  · rename_i i hi
    have hown := Handler.owned_of_active (findPort_some hi).1
    split
    · rename_i hmod
      have hsome := hown.trans (if_pos hmod)
      rw [← Handler.release_some hsome]
      exact .drop rfl (Handler.rest_some hsome _).symm
    · rename_i hmod
      have hnone := hown.trans (if_neg hmod)
      rw [← Handler.release_none hnone]
      exact .drop rfl (Handler.rest_none hnone _).symm
  · exact .aside rfl rfl

theorem handlerClear_owns (hs : Tidy s) (port port' : UInt8) :
    Owns (s.handlerClear port).1 port' ↔ Owns s port' ∧ port ≠ port' := by
  cases hfind : findPort s.handlers port with
  | none =>
    have hsame : (s.handlerClear port).1 = s := by
      rw [Csp.handlerClear, hfind]
    rw [hsame]
    refine ⟨fun h => ⟨h, ?_⟩, fun h => h.1⟩
    rintro rfl
    obtain ⟨i, hi, -⟩ := h
    exact findPort_none hfind i hi
  | some i =>
    have hserves := findPort_some hfind
    rw [Owns, handlerClear_handlers hfind]
    constructor
    · rintro ⟨j, hj, hmod⟩
      have hne : j ≠ i := by
        rintro rfl
        rw [Function.update_self] at hmod
        cases hmod
      rw [Function.update_of_ne hne] at hj hmod
      refine ⟨⟨j, hj, hmod⟩, ?_⟩
      rintro rfl
      exact hne (hs.ports j i port hj hserves)
    · rintro ⟨⟨j, hj, hmod⟩, hne⟩
      have hji : j ≠ i := by
        rintro rfl
        exact hne (hserves.2.symm.trans hj.2)
      refine ⟨j, ?_⟩
      rw [Function.update_of_ne hji]
      exact ⟨hj, hmod⟩

theorem dropRule_move (s : Csp) (idx : Fin rerouteMax) :
    Move p s (s.dropRule idx).2 (s.dropRule idx).1 := by
  rw [Csp.dropRule]
  split
  · exact handlerClear_move s _
  · exact .aside rfl rfl

theorem dropRule_owns (hs : Tidy s) (idx : Fin rerouteMax) (port : UInt8) :
    Owns (s.dropRule idx).1 port ↔
      Owns s port ∧ ¬((s.reroutes idx).active = true ∧ (s.reroutes idx).dstPort = port) := by
  rw [Csp.dropRule]
  split
  · rename_i hact
    rw [handlerClear_owns hs, hact]
    simp
  · rename_i hact
    simp [hact]

/-- An entry of the reroute table is replaced. -/
theorem replaceRule_moves (s : Csp) (idx : Fin rerouteMax) (entry : Reroute) :
    Trace (Move p) s (s.dropRule idx).2 ((s.dropRule idx).1.setRule idx entry) := by
  have hdrop : Trace (Move p) s (s.dropRule idx).2 (s.dropRule idx).1 :=
    .single (dropRule_move s idx)
  have hset : Trace (Move p) (s.dropRule idx).1 [] ((s.dropRule idx).1.setRule idx entry) :=
    .single (.aside rfl rfl)
  have h := hdrop.trans hset
  rwa [List.append_nil] at h

/-- A call is a few moves, and only one that displaces a loaded handler has a move that parts a
function from its module. -/
theorem act_moves (hs : Tidy s) (op : Op) :
    Trace (Move fun x => ¬Displaces s op → x.owned = none) s (s.act op).2 (s.act op).1 := by
  cases op with
  | handlerSet port fn ctx =>
    cases fn with
    | none => exact .single (.aside rfl rfl)
    | some fn =>
      refine .single (handlerSet_move (by simp) fun i hi hdis => ?_)
      exact owned_of_not_owns (fun howns => hdis ⟨by simp, howns⟩) hi
  | handlerLoad port path symbol load lookup =>
    exact .single (handlerLoad_move hs port path symbol load lookup)
  | handlerClear port => exact .single (handlerClear_move s port)
  | rerouteSet idx entry =>
    cases entry with
    | none => exact .single (.aside rfl rfl)
    | some entry =>
      simp only [Csp.act, Csp.rerouteSet]
      split
      · rename_i hidx
        have hrule := replaceRule_moves (p := fun x =>
          ¬Displaces s (.rerouteSet idx (some entry)) → x.owned = none) s ⟨idx.toNat, hidx⟩ entry
        split
        · exact hrule
        · rename_i hact
          rw [Bool.not_eq_true, Bool.not_eq_false'] at hact
          rw [← List.append_nil (s.dropRule ⟨idx.toNat, hidx⟩).2]
          refine hrule.trans (.single (handlerSet_move (by simp) fun i hi hdis => ?_))
          refine owned_of_not_owns (fun howns => hdis ⟨hidx, hact, ?_⟩) hi
          exact (dropRule_owns hs ⟨idx.toNat, hidx⟩ entry.dstPort).1 howns
      · exact .single (.aside rfl rfl)
  | rerouteClear idx =>
    simp only [Csp.act, Csp.rerouteClear]
    split
    · exact replaceRule_moves s _ zeroReroute
    · exact .single (.aside rfl rfl)

/-- A new function in a slot with a module does not come from it. -/
theorem handlerSet_not_matched (hs : Tidy s) {port : UInt8} (howns : Owns s port) {fn : Fn}
    (hfn : ∀ m a, fn ≠ .symbol m a) (ctx : Ctx) :
    ¬Matched (s.handlerSet port (some fn) ctx).1 := by
  obtain ⟨i, hi, hmod⟩ := howns
  have hfind : findPort s.handlers port = some i := by
    cases hfind : findPort s.handlers port with
    | none => exact absurd hi (findPort_none hfind i)
    | some j => rw [hs.ports j i port (findPort_some hfind) hi]
  have hset : (s.handlerSet port (some fn) ctx).1 =
      s.setHandler i { s.handlers i with fn := some fn, ctx := ctx } := by
    rw [Csp.handlerSet, hfind]
    rfl
  intro hmatched
  rw [hset] at hmatched
  have hslot : (s.setHandler i { s.handlers i with fn := some fn, ctx := ctx }).handlers i =
      { s.handlers i with fn := some fn, ctx := ctx } := Function.update_self ..
  obtain ⟨a, ha⟩ := hmatched i (s.handlers i).moduleId
    (by rw [hslot]; exact Handler.owned_eq_some.2 ⟨hi.1, hmod, rfl⟩)
  rw [hslot, Option.some_inj] at ha
  exact hfn _ a ha

theorem act_not_matched (hs : Tidy s) {op : Op} (h : Displaces s op) : ¬Matched (s.act op).1 := by
  cases op with
  | handlerSet port fn ctx =>
    obtain ⟨hfn, howns⟩ := h
    obtain ⟨fn, rfl⟩ := Option.ne_none_iff_exists'.1 hfn
    exact handlerSet_not_matched hs howns (by simp) _
  | rerouteSet idx entry =>
    cases entry with
    | none => exact absurd h id
    | some entry =>
      obtain ⟨hidx, hact, howns⟩ := h
      have hrule := replaceRule_moves (p := fun _ => True) s ⟨idx.toNat, hidx⟩ entry
      have htidy := hrule.keeps (fun _ _ _ hm => hm.tidy) hs
      have howns' := (dropRule_owns hs ⟨idx.toNat, hidx⟩ entry.dstPort).2 howns
      have hset : (s.act (.rerouteSet idx (some entry))).1 =
          (((s.dropRule ⟨idx.toNat, hidx⟩).1.setRule ⟨idx.toNat, hidx⟩ entry).handlerSet
            entry.dstPort (some .reroute) (.rule ⟨idx.toNat, hidx⟩)).1 := by
        simp only [Csp.act, Csp.rerouteSet, dif_pos hidx, hact]
        rfl
      rw [hset]
      exact handlerSet_not_matched htidy howns' (by simp) _
  | handlerLoad => exact absurd h id
  | handlerClear => exact absurd h id
  | rerouteClear => exact absurd h id

/-- Functions and modules stay together exactly in the calls that displace no loaded handler. -/
theorem act_matched_iff (hs : Tidy s) (hm : Matched s) (op : Op) :
    Matched (s.act op).1 ↔ ¬Displaces s op := by
  constructor
  · intro hafter hdis
    exact act_not_matched hs hdis hafter
  · intro hdis
    exact (act_moves hs op).keeps (fun _ _ _ hmove => hmove.matched fun _ hx => hx hdis) hm

/-! ## Runs -/

/-- In every run the table is in order, and the loaded modules are what the loads and unloads
leave, no unload failing. -/
theorem csp_tidy (ops : List Op) :
    Tidy (csp.run cspStart ops) ∧
      replay [] (csp.history cspStart ops) = some (csp.run cspStart ops).loaded := by
  have hstart : Tidy cspStart :=
    ⟨fun i j port hi => absurd hi.1 (by simp [cspStart, zeroHandler]), by simp [cspStart],
      by simp [cspStart], fun i m a hi => absurd hi (by simp [cspStart, zeroHandler]),
      List.nodup_nil⟩
  refine csp.history_invariant (P := fun s es => Tidy s ∧ replay [] es = some s.loaded) ?_
    ⟨hstart, rfl⟩ ops
  intro s es op h
  refine (act_moves h.1 op).extends_history
    (P := fun s es => Tidy s ∧ replay [] es = some s.loaded) ?_ h
  rintro s' es' t g hm ⟨htidy, hreplay⟩
  refine ⟨hm.tidy htidy, ?_⟩
  rw [replay_append, hreplay]
  exact hm.replay htidy

/-- No packet goes to a function from a module that is not loaded. -/
theorem dispatch_loaded (ops : List Op) {port : UInt8} {m : ModuleId} {a : Addr} {ctx : Ctx}
    (h : (csp.run cspStart ops).dispatch port = some (.symbol m a, ctx)) :
    m ∈ (csp.run cspStart ops).loaded := by
  obtain ⟨htidy, -⟩ := csp_tidy ops
  rw [Csp.dispatch, Option.bind_eq_bind, Option.bind_eq_some_iff] at h
  obtain ⟨i, hi, h⟩ := h
  rw [Option.bind_eq_bind, Option.bind_eq_some_iff] at h
  obtain ⟨fn, hfn, heq⟩ := h
  cases heq
  exact (htidy.owners m).2 ⟨i, htidy.source i m a (findPort_some hi).1 hfn⟩

/-- The whole of what is asked: the table is in order, every slot with a module uses it, and no
module is unloaded that is not loaded. -/
structure Exact (s : Csp) (notes : List Note) : Prop extends Tidy s where
  matched : Matched s
  log : replay [] notes = some s.loaded

end Meow
end FlightApps
