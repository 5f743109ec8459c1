import Mathlib.Data.Finset.Card
import FlightApps.Lib.Table
import FlightApps.Oem.Log

/-!
# The integrity of the handler table

A slot of the table is free or taken by its status byte, and a handler is found by its message id.
Calls can break this in two ways: a handler with id 0 is never found, and an override can make the
status of a handler `HANDLER_EMPTY` while it still has its list and its buffer.  The loop over the
callbacks is a third: it runs without the mutex, and if the handler is gone when a callback returns,
it marks the free slot as broken.

`registry_intact_iff` says that there is no other way: a run keeps the table intact exactly if it
does none of these.
-/

set_option autoImplicit false

namespace FlightApps
namespace Log

/-! ## What is claimed -/

/-- The handler is registered for a message id. -/
def Handler.Registered (h : Handler) (id : UInt16) : Prop := h.status ≠ .empty ∧ h.messageId = id

/-- The address is that of the callbacks or of the buffer of a handler. -/
def Handler.Owns (h : Handler) (a : Nat) : Prop :=
  h.callbacks.map CallbackList.addr = some a ∨ h.recentMessage = some a

/-- The table with a book beside it. -/
structure Watched where
  state : State
  /-- The ids whose registration has returned `OEM_OK`, as long as they are not unregistered. -/
  registered : Finset UInt16
  /-- The message that was handled last, and the status its handler had. -/
  handling : Option (UInt16 × Option Status)
  /-- Something was freed that was not allocated. -/
  doubleFree : Bool
  /-- A callback was called for a message whose handler was not active. -/
  strayCall : Bool

/-- The ids after a step. -/
def noteRegistered (ids : Finset UInt16) (i : Input) (es : List Effect) : Finset UInt16 :=
  match i with
  | .call (.register id ..) => if .returned .ok ∈ es then insert id ids else ids
  | .call (.unregister id) => if .returned .ok ∈ es then ids.erase id else ids
  | _ => ids

/-- The message that is handled after a step. -/
def noteHandling (s : State) (handling : Option (UInt16 × Option Status)) (i : Input) :
    Option (UInt16 × Option Status) :=
  match i with
  | .message m =>
    if s.exec.isSome then handling
    else
      some (m.messageId, (s.getHandlerById m.messageId).map fun k => (s.handlers k).status)
  | _ => handling

/-- The effect frees something that was not allocated. -/
def Effect.isDoubleFree : Effect → Bool
  | .freed _ live => !live
  | _ => false

/-- The effect calls a callback that is not one of the message that is handled, or while its handler
was not active. -/
def Effect.isStray (handling : Option (UInt16 × Option Status)) : Effect → Bool
  | .ran id _ => handling ≠ some (id, some .active)
  | _ => false

/-- The table under its calls, with the book. -/
def watched : Machine Watched Input (List Effect) where
  step w i :=
    let r := registry.step w.state i
    let handling := noteHandling w.state w.handling i
    (⟨r.1, noteRegistered w.registered i r.2, handling, w.doubleFree || r.2.any Effect.isDoubleFree,
      w.strayCall || r.2.any (Effect.isStray handling)⟩, r.2)

/-- Before the first call. -/
def Watched.start : Watched := ⟨.start, ∅, none, false, false⟩

/-- **The table is intact.** -/
structure Intact (w : Watched) : Prop where
  /-- At most one handler for an id. -/
  one : Table.OneSlot Handler.Registered w.state.handlers
  /-- What is registered is found. -/
  found : ∀ id, id ∈ w.registered ↔ (w.state.getHandlerById id).isSome = true
  /-- What is allocated belongs to one registered handler. -/
  owner : ∀ a ∈ w.state.heap, ∃! k,
    (w.state.handlers k).status ≠ .empty ∧ (w.state.handlers k).Owns a
  /-- What belongs to a handler is allocated. -/
  held : ∀ k a, (w.state.handlers k).Owns a → a ∈ w.state.heap
  freed : w.doubleFree = false
  /-- Once all that is registered is unregistered, all slots are free. -/
  slots : ∀ ids : List UInt16, (∀ id ∈ w.registered, id ∈ ids) → ∀ k,
    ((registry.run w.state (ids.map fun id => .call (.unregister id))).handlers k).status = .empty
  called : w.strayCall = false

/-- **A step that does no harm**: no handler is registered for id 0, none is made empty by an
override, and when a callback has returned and there is another, the handler is still there. -/
def Careful (s : State) : Input → Prop
  | .call (.register id _ list message) => id = 0 → s.getEmptyHandlerSlot = none ∨
      (s.alloc list).2 = none ∨ ((s.alloc list).1.alloc message).2 = none
  | .call (.setStatus id status true) => Status.ofByte status = some .empty →
      s.getHandlerById id = none
  | .returns .ok => ∀ e, s.exec = some e → e.i + 1 < e.ncb → (s.handlers e.slot).status ≠ .empty
  | _ => True

/-! ## The invariant -/

/-- **The invariant** of the table. -/
structure Sound (s : State) : Prop where
  id : ∀ k, (s.handlers k).status ≠ .empty → (s.handlers k).messageId ≠ 0
  one : Table.OneSlot Handler.Registered s.handlers
  clean : ∀ k, (s.handlers k).status = .empty → ∀ a, ¬(s.handlers k).Owns a
  held : ∀ k a, (s.handlers k).Owns a → a ∈ s.heap
  owner : ∀ a ∈ s.heap, ∃ k, (s.handlers k).Owns a
  oneOwner : Table.OneSlot Handler.Owns s.handlers
  /-- The list and the buffer are two things. -/
  apart : ∀ k a, (s.handlers k).callbacks.map CallbackList.addr = some a →
    (s.handlers k).recentMessage ≠ some a

section Lookup

variable {s : State} {id : UInt16} {k : Slot}

theorem getHandlerById_some (h : s.getHandlerById id = some k) :
    id ≠ 0 ∧ (s.handlers k).Registered id := by
  rw [State.getHandlerById] at h
  split at h
  · exact absurd h (by simp)
  · rename_i hid
    exact ⟨hid, by simpa [Handler.Registered] using List.find?_some h⟩

theorem getHandlerById_none (h : s.getHandlerById id = none) (hid : id ≠ 0) (k : Slot) :
    ¬(s.handlers k).Registered id := by
  rw [State.getHandlerById, if_neg hid] at h
  have := List.find?_eq_none.1 h k (List.mem_finRange k)
  simpa [Handler.Registered] using this

theorem getEmptyHandlerSlot_some (h : s.getEmptyHandlerSlot = some k) :
    (s.handlers k).status = .empty := by
  simpa using List.find?_some h

/-- A handler is found if it is there and has an id. -/
theorem getHandlerById_isSome :
    (s.getHandlerById id).isSome = true ↔ id ≠ 0 ∧ ∃ k, (s.handlers k).Registered id := by
  constructor
  · intro h
    obtain ⟨k, hk⟩ := Option.isSome_iff_exists.1 h
    exact ⟨(getHandlerById_some hk).1, k, (getHandlerById_some hk).2⟩
  · rintro ⟨hid, k, hk⟩
    by_contra hnone
    exact getHandlerById_none (Option.not_isSome_iff_eq_none.1 hnone) hid k hk

end Lookup

/-! ## Moves -/

/-- The two handlers are the same for the table. -/
structure Handler.Similar (h h' : Handler) : Prop where
  empty : h'.status = .empty ↔ h.status = .empty
  messageId : h'.messageId = h.messageId
  list : h'.callbacks.map CallbackList.addr = h.callbacks.map CallbackList.addr
  message : h'.recentMessage = h.recentMessage

theorem Handler.Similar.refl (h : Handler) : h.Similar h := ⟨.rfl, rfl, rfl, rfl⟩

theorem Handler.Similar.trans {h h' h'' : Handler} (hs : h.Similar h') (hs' : h'.Similar h'') :
    h.Similar h'' :=
  ⟨hs'.empty.trans hs.empty, hs'.messageId.trans hs.messageId, hs'.list.trans hs.list,
    hs'.message.trans hs.message⟩

theorem Handler.Similar.owns {h h' : Handler} (hs : h.Similar h') (a : Nat) :
    h'.Owns a ↔ h.Owns a := by
  rw [Handler.Owns, hs.list, hs.message, Handler.Owns]

theorem Handler.Similar.registered {h h' : Handler} (hs : h.Similar h') (id : UInt16) :
    h'.Registered id ↔ h.Registered id := by
  rw [Handler.Registered, hs.messageId, Ne, hs.empty, Handler.Registered]

/-- The two states are the same for the table. -/
structure State.Similar (s s' : State) : Prop where
  heap : s'.heap = s.heap
  handler : ∀ k, (s.handlers k).Similar (s'.handlers k)

theorem State.Similar.refl (s : State) : s.Similar s := ⟨rfl, fun _ => .refl _⟩

theorem State.Similar.trans {s s' s'' : State} (hs : s.Similar s') (hs' : s'.Similar s'') :
    s.Similar s'' :=
  ⟨hs'.heap.trans hs.heap, fun k => (hs.handler k).trans (hs'.handler k)⟩

theorem similar_setHandler {s : State} {k : Slot} {h : Handler} (hs : (s.handlers k).Similar h) :
    s.Similar (s.setHandler k h) := by
  refine ⟨rfl, fun j => ?_⟩
  rw [setHandler_handlers]
  by_cases hj : j = k
  · rw [hj, Function.update_self]
    exact hs
  · rw [Function.update_of_ne hj]
    exact .refl _

/-- **What a call does to the table.** -/
inductive Move (s : State) : State → Prop
  /-- Nothing that matters. -/
  | edit (s' : State) (h : s.Similar s') : Move s s'
  /-- A handler is registered. -/
  | create (k : Slot) (h : Handler) (a b : Nat) (hempty : (s.handlers k).status = .empty)
      (hid : h.messageId ≠ 0) (hnew : ∀ j, ¬(s.handlers j).Registered h.messageId)
      (hstatus : h.status ≠ .empty) (hlist : h.callbacks = some ⟨a, [], none⟩)
      (hmessage : h.recentMessage = some b) (ha : a ∉ s.heap) (hb : b ∉ insert a s.heap)
      (s' : State) (hheap : s'.heap = insert b (insert a s.heap))
      (hs' : s'.handlers = Function.update s.handlers k h) : Move s s'
  /-- A handler is purged. -/
  | purge (k : Slot) (s' : State)
      (hheap : ∀ a, a ∈ s'.heap ↔ a ∈ s.heap ∧ ¬(s.handlers k).Owns a)
      (hs' : s'.handlers = Function.update s.handlers k .zero) : Move s s'
  /-- A handler gets a new list, if there is one. -/
  | relist (k : Slot) (h : Handler) (hstatus : (s.handlers k).status ≠ .empty)
      (hempty : h.status = (s.handlers k).status) (hid : h.messageId = (s.handlers k).messageId)
      (hmessage : h.recentMessage = (s.handlers k).recentMessage)
      (hnew : ∀ a, h.callbacks.map CallbackList.addr = some a → a ∉ s.heap ∨
        (s.handlers k).callbacks.map CallbackList.addr = some a)
      (s' : State)
      (hheap : ∀ a, a ∈ s'.heap ↔ h.callbacks.map CallbackList.addr = some a ∨
        a ∈ s.heap ∧ (s.handlers k).callbacks.map CallbackList.addr ≠ some a)
      (hs' : s'.handlers = Function.update s.handlers k h) : Move s s'

theorem zero_owns (a : Nat) : ¬Handler.zero.Owns a := by
  simp [Handler.Owns, Handler.zero]

section Moves

variable {s s' : State}

theorem Sound.edit (h : Sound s) (hs : s.Similar s') : Sound s' where
  id k hk := by
    rw [(hs.handler k).messageId]
    exact h.id k fun hempty => hk ((hs.handler k).empty.2 hempty)
  one j k id hj hk := by
    rw [(hs.handler j).registered] at hj
    rw [(hs.handler k).registered] at hk
    exact h.one j k id hj hk
  clean k hk a := by
    rw [(hs.handler k).owns]
    exact h.clean k ((hs.handler k).empty.1 hk) a
  held k a hk := by
    rw [(hs.handler k).owns] at hk
    rw [hs.heap]
    exact h.held k a hk
  owner a ha := by
    rw [hs.heap] at ha
    obtain ⟨k, hk⟩ := h.owner a ha
    exact ⟨k, ((hs.handler k).owns a).2 hk⟩
  oneOwner j k a hj hk := by
    rw [(hs.handler j).owns] at hj
    rw [(hs.handler k).owns] at hk
    exact h.oneOwner j k a hj hk
  apart k a hk := by
    rw [(hs.handler k).list] at hk
    rw [(hs.handler k).message]
    exact h.apart k a hk

/-- What holds of every slot of a table, where one changes. -/
theorem update_slot {P : Handler → Prop} {f : Slot → Handler} {k : Slot} {h : Handler} (hh : P h)
    (hf : ∀ j, j ≠ k → P (f j)) (j : Slot) : P (Function.update f k h j) :=
  (Function.forall_update_iff f fun _ => P).2 ⟨hh, hf⟩ j

theorem Sound.create (h : Sound s) {k : Slot} {x : Handler} {a b : Nat}
    (hempty : (s.handlers k).status = .empty) (hid : x.messageId ≠ 0)
    (hnew : ∀ j, ¬(s.handlers j).Registered x.messageId) (hstatus : x.status ≠ .empty)
    (hlist : x.callbacks = some ⟨a, [], none⟩) (hmessage : x.recentMessage = some b)
    (ha : a ∉ s.heap) (hb : b ∉ insert a s.heap) (hheap : s'.heap = insert b (insert a s.heap))
    (hs' : s'.handlers = Function.update s.handlers k x) : Sound s' := by
  have howns : ∀ c, x.Owns c ↔ c = a ∨ c = b := by
    intro c
    simp [Handler.Owns, hlist, hmessage, eq_comm]
  have hold : ∀ j c, (s.handlers j).Owns c → c ≠ a ∧ c ≠ b := by
    intro j c hc
    have hmem := h.held j c hc
    refine ⟨fun hca => ha (hca ▸ hmem), fun hcb => hb ?_⟩
    exact Finset.mem_insert_of_mem (hcb ▸ hmem)
  refine ⟨?_, ?_, ?_, ?_, ?_, ?_, ?_⟩
  · rw [hs']
    exact update_slot (P := fun y => y.status ≠ .empty → y.messageId ≠ 0) (fun _ => hid)
      fun j _ => h.id j
  · rw [hs']
    refine h.one.update fun id hx j _ hj => ?_
    rw [← hx.2] at hj
    exact hnew j hj
  · rw [hs']
    exact update_slot (P := fun y => y.status = .empty → ∀ c, ¬y.Owns c)
      (fun hx => absurd hx hstatus) fun j _ => h.clean j
  · rw [hs', hheap]
    refine update_slot (P := fun y => ∀ c, y.Owns c → c ∈ insert b (insert a s.heap))
      (fun c hc => ?_) fun j _ c hc => ?_
    · rcases (howns c).1 hc with rfl | rfl <;> simp
    · exact Finset.mem_insert_of_mem (Finset.mem_insert_of_mem (h.held j c hc))
  · intro c hc
    rw [hs']
    rw [hheap, Finset.mem_insert, Finset.mem_insert] at hc
    rcases hc with hc | hc | hc
    · exact ⟨k, by rw [Function.update_self]; exact (howns c).2 (.inr hc)⟩
    · exact ⟨k, by rw [Function.update_self]; exact (howns c).2 (.inl hc)⟩
    · obtain ⟨j, hj⟩ := h.owner c hc
      have hne : j ≠ k := by
        rintro rfl
        exact h.clean j hempty c hj
      exact ⟨j, by rw [Function.update_of_ne hne]; exact hj⟩
  · rw [hs']
    refine h.oneOwner.update fun c hc j _ hj => ?_
    rcases (howns c).1 hc with hca | hcb
    · exact (hold j c hj).1 hca
    · exact (hold j c hj).2 hcb
  · rw [hs']
    refine update_slot (P := fun y => ∀ c, y.callbacks.map CallbackList.addr = some c →
      y.recentMessage ≠ some c) (fun c hc hm => ?_) fun j _ => h.apart j
    simp only [hlist, hmessage, Option.map_some, Option.some_inj] at hc hm
    exact hb (by simp [hm, hc])

theorem Sound.purge (h : Sound s) {k : Slot}
    (hheap : ∀ a, a ∈ s'.heap ↔ a ∈ s.heap ∧ ¬(s.handlers k).Owns a)
    (hs' : s'.handlers = Function.update s.handlers k .zero) : Sound s' := by
  refine ⟨?_, ?_, ?_, ?_, ?_, ?_, ?_⟩
  · rw [hs']
    exact update_slot (P := fun y => y.status ≠ .empty → y.messageId ≠ 0)
      (fun hx => absurd rfl hx) fun j _ => h.id j
  · rw [hs']
    exact h.one.update fun id hx => absurd rfl hx.1
  · rw [hs']
    exact update_slot (P := fun y => y.status = .empty → ∀ c, ¬y.Owns c) (fun _ => zero_owns)
      fun j _ => h.clean j
  · rw [hs']
    refine update_slot (P := fun y => ∀ c, y.Owns c → c ∈ s'.heap)
      (fun c hc => absurd hc (zero_owns c)) fun j hj c hc => ?_
    exact (hheap c).2 ⟨h.held j c hc, fun hk => hj (h.oneOwner j k c hc hk)⟩
  · intro c hc
    obtain ⟨hmem, hnot⟩ := (hheap c).1 hc
    obtain ⟨j, hj⟩ := h.owner c hmem
    have hne : j ≠ k := by
      rintro rfl
      exact hnot hj
    exact ⟨j, by rw [hs', Function.update_of_ne hne]; exact hj⟩
  · rw [hs']
    exact h.oneOwner.update fun c hc => absurd hc (zero_owns c)
  · rw [hs']
    exact update_slot (P := fun y => ∀ c, y.callbacks.map CallbackList.addr = some c →
      y.recentMessage ≠ some c) (fun c hc => absurd hc (by simp [Handler.zero]))
      fun j _ => h.apart j

theorem Sound.relist (h : Sound s) {k : Slot} {x : Handler}
    (hstatus : (s.handlers k).status ≠ .empty) (hempty : x.status = (s.handlers k).status)
    (hid : x.messageId = (s.handlers k).messageId)
    (hmessage : x.recentMessage = (s.handlers k).recentMessage)
    (hnew : ∀ a, x.callbacks.map CallbackList.addr = some a → a ∉ s.heap ∨
      (s.handlers k).callbacks.map CallbackList.addr = some a)
    (hheap : ∀ a, a ∈ s'.heap ↔ x.callbacks.map CallbackList.addr = some a ∨
      a ∈ s.heap ∧ (s.handlers k).callbacks.map CallbackList.addr ≠ some a)
    (hs' : s'.handlers = Function.update s.handlers k x) : Sound s' := by
  have hnothers : ∀ a, x.callbacks.map CallbackList.addr = some a → ∀ j, j ≠ k →
      ¬(s.handlers j).Owns a := by
    intro a ha j hj hown
    rcases hnew a ha with hfresh | hold
    · exact hfresh (h.held j a hown)
    · exact hj (h.oneOwner j k a hown (.inl hold))
  refine ⟨?_, ?_, ?_, ?_, ?_, ?_, ?_⟩
  · rw [hs']
    exact update_slot (P := fun y => y.status ≠ .empty → y.messageId ≠ 0)
      (fun _ => hid ▸ h.id k hstatus) fun j _ => h.id j
  · rw [hs']
    refine h.one.update fun id hx j hj hreg => hj (h.one j k id hreg ⟨hstatus, ?_⟩)
    rw [← hid]
    exact hx.2
  · rw [hs']
    exact update_slot (P := fun y => y.status = .empty → ∀ c, ¬y.Owns c)
      (fun hx => absurd (hempty ▸ hx) hstatus) fun j _ => h.clean j
  · rw [hs']
    refine update_slot (P := fun y => ∀ c, y.Owns c → c ∈ s'.heap) (fun c hc => ?_)
      fun j hj c hc => ?_
    · rw [hheap]
      rcases hc with hc | hc
      · exact .inl hc
      · rw [hmessage] at hc
        exact .inr ⟨h.held k c (.inr hc), fun hl => h.apart k c hl hc⟩
    · rw [hheap]
      exact .inr ⟨h.held j c hc, fun hl => hj (h.oneOwner j k c hc (.inl hl))⟩
  · intro c hc
    rw [hs']
    rcases (hheap c).1 hc with hx | ⟨hmem, hnot⟩
    · exact ⟨k, by rw [Function.update_self]; exact .inl hx⟩
    · obtain ⟨j, hj⟩ := h.owner c hmem
      by_cases hjk : j = k
      · rw [hjk] at hj
        refine ⟨k, ?_⟩
        rw [Function.update_self, Handler.Owns, hmessage]
        exact .inr (hj.resolve_left hnot)
      · exact ⟨j, by rw [Function.update_of_ne hjk]; exact hj⟩
  · rw [hs']
    refine h.oneOwner.update fun c hc j hj hown => ?_
    rcases hc with hc | hc
    · exact hnothers c hc j hj hown
    · rw [hmessage] at hc
      exact hj (h.oneOwner j k c hown (.inr hc))
  · rw [hs']
    refine update_slot (P := fun y => ∀ c, y.callbacks.map CallbackList.addr = some c →
      y.recentMessage ≠ some c) (fun c hc hm => ?_) fun j _ => h.apart j
    rw [hmessage] at hm
    rcases hnew c hc with hfresh | hold
    · exact hfresh (h.held k c (.inr hm))
    · exact h.apart k c hold hm

/-- **Moves keep the invariant.** -/
theorem Sound.move (h : Sound s) (hm : Move s s') : Sound s' := by
  rcases hm with ⟨_, hs⟩ | ⟨k, x, a, b, hempty, hid, hnew, hstatus, hlist, hmessage, ha, hb, _,
    hheap, hs'⟩ | ⟨k, _, hheap, hs'⟩ | ⟨k, x, hstatus, hempty, hid, hmessage, hnew, _, hheap, hs'⟩
  · exact h.edit hs
  · exact h.create hempty hid hnew hstatus hlist hmessage ha hb hheap hs'
  · exact h.purge hheap hs'
  · exact h.relist hstatus hempty hid hmessage hnew hheap hs'

end Moves

/-! ## What the calls do -/

/-- The cursor of the callbacks is at a node. -/
def Handler.HasCursor (h : Handler) : Prop := h.callbacks.bind CallbackList.cursor ≠ none

/-- The ids are those of the registered handlers. -/
def Lists (ids : Finset UInt16) (s : State) : Prop :=
  ∀ id, id ∈ ids ↔ ∃ k, (s.handlers k).Registered id

/-- What holds of every call. -/
structure Does (s : State) (c : Call) (r : State × List Effect) : Prop where
  move : Move s r.1
  exec : r.1.exec = s.exec
  cursor : ∀ k, (r.1.handlers k).HasCursor →
    (s.handlers k).HasCursor ∧ (r.1.handlers k).messageId = (s.handlers k).messageId
  freed : r.2.any Effect.isDoubleFree = false
  called : ∀ handling, r.2.any (Effect.isStray handling) = false
  ids : ∀ ids, Lists ids s → Lists (noteRegistered ids (.call c) r.2) r.1

section Heap

variable (s : State)

theorem alloc_cases (p : Option Nat) : s.alloc p = (s, none) ∨
    ∃ a, a ∉ s.heap ∧ s.alloc p = ({ s with heap := insert a s.heap }, some a) := by
  rcases p with _ | a
  · exact .inl rfl
  · by_cases ha : a ∈ s.heap
    · exact .inl (if_pos ha)
    · exact .inr ⟨a, ha, if_neg ha⟩

@[simp] theorem alloc_handlers (p : Option Nat) : (s.alloc p).1.handlers = s.handlers := by
  rcases alloc_cases s p with h | ⟨a, -, h⟩ <;> rw [h]

@[simp] theorem alloc_exec (p : Option Nat) : (s.alloc p).1.exec = s.exec := by
  rcases alloc_cases s p with h | ⟨a, -, h⟩ <;> rw [h]

theorem mem_alloc_heap (p : Option Nat) (a : Nat) :
    a ∈ (s.alloc p).1.heap ↔ (s.alloc p).2 = some a ∨ a ∈ s.heap := by
  rcases alloc_cases s p with h | ⟨b, -, h⟩
  · simp [h]
  · simp [h, eq_comm]

theorem alloc_fresh {p : Option Nat} {a : Nat} (ha : (s.alloc p).2 = some a) : a ∉ s.heap := by
  rcases alloc_cases s p with h | ⟨b, hb, h⟩
  · rw [h] at ha
    exact absurd ha (by simp)
  · rw [h, Option.some_inj] at ha
    rw [← ha]
    exact hb

@[simp] theorem free_handlers (p : Option Nat) : (s.free p).1.handlers = s.handlers := by
  rcases p with _ | a <;> rfl

@[simp] theorem free_exec (p : Option Nat) : (s.free p).1.exec = s.exec := by
  rcases p with _ | a <;> rfl

theorem mem_free_heap (p : Option Nat) (a : Nat) :
    a ∈ (s.free p).1.heap ↔ a ∈ s.heap ∧ p ≠ some a := by
  rcases p with _ | b
  · exact (and_iff_left (by simp)).symm
  · change a ∈ s.heap.erase b ↔ _
    rw [Finset.mem_erase, and_comm, Ne, Ne, Option.some_inj, eq_comm]

theorem free_freed {p : Option Nat} (h : ∀ a, p = some a → a ∈ s.heap) :
    (s.free p).2.any Effect.isDoubleFree = false := by
  rcases p with _ | a
  · rfl
  · simp [State.free, Effect.isDoubleFree, h a rfl]

theorem free_called (p : Option Nat) (handling : Option (UInt16 × Option Status)) :
    (s.free p).2.any (Effect.isStray handling) = false := by
  rcases p with _ | a <;> rfl

theorem not_returned_free (p : Option Nat) (r : Ret) : .returned r ∉ (s.free p).2 := by
  rcases p with _ | a <;> simp [State.free]

end Heap

section Calls

variable {s : State} {c : Call} {k : Slot} {id : UInt16}

theorem Lists.similar {ids : Finset UInt16} {s' : State} (h : Lists ids s) (hs : s.Similar s') :
    Lists ids s' := by
  intro id
  rw [h id]
  exact exists_congr fun k => ((hs.handler k).registered id).symm

/-- A call that changes nothing that matters. -/
theorem does_similar {s' : State} {r : Ret} (hs : s.Similar s') (hexec : s'.exec = s.exec)
    (hcursor : ∀ k, (s'.handlers k).HasCursor → (s.handlers k).HasCursor)
    (hnote : ∀ ids, noteRegistered ids (.call c) [.returned r] = ids) :
    Does s c (s', [.returned r]) where
  move := .edit _ hs
  exec := hexec
  cursor k hk := ⟨hcursor k hk, (hs.handler k).messageId⟩
  freed := rfl
  called _ := rfl
  ids ids h := by
    rw [hnote]
    exact h.similar hs

theorem does_nothing {r : Ret} (hnote : ∀ ids, noteRegistered ids (.call c) [.returned r] = ids) :
    Does s c (s, [.returned r]) :=
  does_similar (.refl s) rfl (fun _ => id) hnote

theorem does_edit {r : Ret} {h : Handler} (hs : (s.handlers k).Similar h)
    (hcursor : h.HasCursor → (s.handlers k).HasCursor)
    (hnote : ∀ ids, noteRegistered ids (.call c) [.returned r] = ids) :
    Does s c (s.setHandler k h, [.returned r]) := by
  refine does_similar (similar_setHandler hs) rfl (fun j => ?_) hnote
  rw [setHandler_handlers]
  by_cases hj : j = k
  · rw [hj, Function.update_self]
    exact hcursor
  · rw [Function.update_of_ne hj]
    exact fun hc => hc

/-- A registration that does not return `OEM_OK`. -/
theorem note_failed {mlen : UInt16} {list message : Option Nat} {es : List Effect}
    (hes : .returned .ok ∉ es) (ids : Finset UInt16) :
    noteRegistered ids (.call (.register id mlen list message)) es = ids := if_neg hes

theorem note_unregister_failed {es : List Effect} (hes : .returned .ok ∉ es) (ids : Finset UInt16) :
    noteRegistered ids (.call (.unregister id)) es = ids := if_neg hes

/-- Without a list or a buffer an empty slot is as it was. -/
theorem Sound.similar_emptied (h : Sound s) (hk : (s.handlers k).status = .empty) {x : Handler}
    (hempty : x.status = .empty) (hid : x.messageId = (s.handlers k).messageId)
    (hlist : x.callbacks = none) (hmessage : x.recentMessage = none) :
    (s.handlers k).Similar x := by
  have hnone := h.clean k hk
  refine ⟨iff_of_true hempty hk, hid, ?_, ?_⟩
  · rw [hlist, Option.map_none, eq_comm, Option.eq_none_iff_forall_ne_some]
    exact fun a ha => hnone a (.inl ha)
  · rw [hmessage, eq_comm, Option.eq_none_iff_forall_ne_some]
    exact fun a ha => hnone a (.inr ha)

theorem no_cursor {h : Handler} (hl : h.callbacks.bind CallbackList.cursor = none) :
    ¬h.HasCursor := not_not.2 hl

/-- The slots that do not change keep their cursors, and the one that does has none. -/
theorem update_cursor {x : Handler} (hx : ¬x.HasCursor) (j : Slot)
    (hj : (Function.update s.handlers k x j).HasCursor) : (s.handlers j).HasCursor ∧
      (Function.update s.handlers k x j).messageId = (s.handlers j).messageId := by
  by_cases hjk : j = k
  · rw [hjk, Function.update_self] at hj
    exact absurd hj hx
  · rw [Function.update_of_ne hjk] at hj ⊢
    exact ⟨hj, rfl⟩

/-- **`oem_log_handler_register`.** -/
theorem register_does (h : Sound s) {mlen : UInt16} {list message : Option Nat}
    (hcareful : Careful s (.call (.register id mlen list message))) :
    Does s (.register id mlen list message) (s.register id mlen list message) := by
  rw [State.register]
  split
  · exact does_nothing (note_failed (by simp))
  rename_i hfound
  split
  · exact does_nothing (note_failed (by simp))
  rename_i k hslot
  have hempty := getEmptyHandlerSlot_some hslot
  have hnomessage : (s.handlers k).recentMessage = none :=
    Option.eq_none_iff_forall_ne_some.2 fun b hb => h.clean k hempty b (.inr hb)
  rcases alloc_cases s list with hlist | ⟨a, ha, hlist⟩
  · rw [hlist]
    exact does_edit (h.similar_emptied hempty hempty rfl rfl hnomessage)
      (fun hc => absurd rfl hc) (note_failed (by simp))
  rw [hlist]
  dsimp only
  rcases alloc_cases { s with heap := insert a s.heap } message with hmessage | ⟨b, hb, hmessage⟩
  · -- The list is freed again.
    rw [hmessage]
    have hsimilar := similar_setHandler (h.similar_emptied hempty
      (x := { s.handlers k with callbacks := none, recentMessage := none }) hempty rfl rfl rfl)
    refine ⟨.edit _ ⟨?_, hsimilar.handler⟩, rfl, update_cursor (no_cursor rfl), ?_, fun _ => rfl,
      fun ids hids => ?_⟩
    · exact Finset.erase_insert ha
    · simp [State.free, Effect.isDoubleFree]
    · rw [note_failed (by simp [State.free])]
      exact hids.similar ⟨Finset.erase_insert ha, hsimilar.handler⟩
  rw [hmessage]
  dsimp only
  have hid : id ≠ 0 := by
    intro hzero
    rcases hcareful hzero with hnone | hnone | hnone
    · rw [hslot] at hnone
      exact absurd hnone (by simp)
    · rw [hlist] at hnone
      exact absurd hnone (by simp)
    · rw [hlist, hmessage] at hnone
      exact absurd hnone (by simp)
  have hnew : ∀ j, ¬(s.handlers j).Registered id := fun j hj =>
    hfound (getHandlerById_isSome.2 ⟨hid, j, hj⟩)
  refine ⟨.create k _ a b hempty hid hnew (by simp) rfl rfl ha hb _ rfl rfl, rfl,
    update_cursor (no_cursor rfl), rfl, fun _ => rfl, fun ids hids id' => ?_⟩
  rw [noteRegistered, if_pos (List.mem_singleton.2 rfl), Finset.mem_insert, hids id']
  constructor
  · rintro (rfl | ⟨j, hj⟩)
    · refine ⟨k, ?_⟩
      rw [setHandler_handlers, Function.update_self]
      exact ⟨by simp, rfl⟩
    · refine ⟨j, ?_⟩
      have hne : j ≠ k := by
        rintro rfl
        exact hj.1 hempty
      rw [setHandler_handlers, Function.update_of_ne hne]
      exact hj
  · rintro ⟨j, hj⟩
    by_cases hjk : j = k
    · rw [hjk, setHandler_handlers, Function.update_self] at hj
      exact .inl hj.2.symm
    · rw [setHandler_handlers, Function.update_of_ne hjk] at hj
      exact .inr ⟨j, hj⟩

/-- **`oem_log_handler_unregister`.** -/
theorem unregister_does (h : Sound s) : Does s (.unregister id) (s.unregister id) := by
  rw [State.unregister]
  split
  · exact does_nothing (note_unregister_failed (by simp))
  rename_i k hk
  obtain ⟨hid, hreg⟩ := getHandlerById_some hk
  have hheap : ∀ a, a ∈ (s.purgeHandler k).1.heap ↔ a ∈ s.heap ∧ ¬(s.handlers k).Owns a := by
    intro a
    change a ∈ ((s.free _).1.free _).1.heap ↔ _
    rw [mem_free_heap, mem_free_heap, Handler.Owns, not_or, and_assoc, and_comm (b := ¬_)]
  have hs' : (s.purgeHandler k).1.handlers = Function.update s.handlers k .zero := by
    rw [State.purgeHandler]
    dsimp only
    rw [setHandler_handlers, free_handlers, free_handlers]
  refine ⟨.purge k _ hheap hs', ?_, fun j => ?_, ?_, fun handling => ?_, fun ids hids id' => ?_⟩
  · rw [State.purgeHandler]
    dsimp only
    rw [setHandler_exec, free_exec, free_exec]
  · rw [hs']
    exact update_cursor (no_cursor rfl) j
  · rw [State.purgeHandler]
    dsimp only
    rw [List.any_append, List.any_append, free_freed _ fun a ha => h.held k a (.inr ha),
      free_freed _ fun a ha => ?_]
    · rfl
    · rw [mem_free_heap]
      exact ⟨h.held k a (.inl ha), h.apart k a ha⟩
  · rw [State.purgeHandler]
    dsimp only
    rw [List.any_append, List.any_append, free_called, free_called]
    rfl
  · rw [noteRegistered, if_pos (by simp), Finset.mem_erase, hids id']
    dsimp only
    rw [hs']
    constructor
    · rintro ⟨hne, j, hj⟩
      have hjk : j ≠ k := by
        rintro rfl
        exact hne (hj.2.symm.trans hreg.2)
      exact ⟨j, by rw [Function.update_of_ne hjk]; exact hj⟩
    · rintro ⟨j, hj⟩
      by_cases hjk : j = k
      · rw [hjk, Function.update_self] at hj
        exact absurd rfl hj.1
      · rw [Function.update_of_ne hjk] at hj
        refine ⟨?_, j, hj⟩
        rintro rfl
        exact hjk (h.one j k _ hj hreg)

/-- **`set_handler_status`.** -/
theorem setHandlerStatus_does {status : UInt8} {opt : StatOpt}
    (hempty : opt = .override → Status.ofByte status = some .empty → s.getHandlerById id = none)
    (hnote : ∀ ids r, noteRegistered ids (.call c) [.returned r] = ids) :
    Does s c (s.setHandlerStatus id status opt) := by
  rw [State.setHandlerStatus]
  split
  · exact does_nothing (hnote · _)
  rename_i target htarget
  split
  · exact does_nothing (hnote · _)
  rename_i k hk
  split
  · rename_i hvalid
    have hreg := (getHandlerById_some hk).2
    have hne : target ≠ .empty := by
      rintro rfl
      rcases hvalid with hopt | hvalid
      · rw [hempty hopt htarget] at hk
        exact absurd hk (by simp)
      · simp [isValidTransfer] at hvalid
    exact does_edit ⟨iff_of_false hne hreg.1, rfl, rfl, rfl⟩ (fun hc => hc) (hnote · _)
  · exact does_nothing (hnote · _)

/-- The loops over all handlers. -/
theorem changeAll_does {source target : Status} (hs : source ≠ .empty) (ht : target ≠ .empty)
    (hnote : ∀ ids r, noteRegistered ids (.call c) [.returned r] = ids) :
    Does s c (s.changeAll source target) := by
  refine does_similar ⟨rfl, fun k => ?_⟩ rfl (fun k => ?_) (hnote · _)
  · dsimp only
    split
    · rename_i hk
      exact ⟨iff_of_false ht (hk ▸ hs), rfl, rfl, rfl⟩
    · exact .refl _
  · dsimp only
    split <;> exact fun hc => hc

/-- Settings of a handler. -/
theorem change_does {f : Handler → Handler} (hf : ∀ h : Handler, h.Similar (f h))
    (hcursor : ∀ h, (f h).callbacks = h.callbacks)
    (hnote : ∀ ids r, noteRegistered ids (.call c) [.returned r] = ids) :
    Does s c (s.change id f) := by
  rw [State.change]
  split
  · exact does_nothing (hnote · _)
  · refine does_edit (hf _) (fun hc => ?_) (hnote · _)
    rw [Handler.HasCursor, hcursor] at hc
    exact hc

/-- **`oem_log_add_callback`.** -/
theorem addCallback_does {callback : Option Callback} {node : Bool} :
    Does s (.addCallback id callback node) (s.addCallback id callback node) := by
  rw [State.addCallback.eq_def]
  split
  · exact does_nothing fun _ => rfl
  split
  · exact does_nothing fun _ => rfl
  split
  · rename_i l _ hl
    refine does_edit ⟨.rfl, rfl, ?_, rfl⟩ (fun hc => ?_) fun _ => rfl
    · rw [hl]
      rfl
    · rw [Handler.HasCursor, hl]
      exact hc
  · exact does_nothing fun _ => rfl

theorem new_list_addr (p : Option Nat) :
    (p.map fun a => (⟨a, [], none⟩ : CallbackList)).map CallbackList.addr = p := by
  rw [Option.map_map]
  exact Option.map_id'

/-- **`oem_log_clear_callbacks`.** -/
theorem clearCallbacks_does (h : Sound s) {list : Option Nat} :
    Does s (.clearCallbacks id list) (s.clearCallbacks id list) := by
  rw [State.clearCallbacks]
  split
  · exact does_nothing fun _ => rfl
  rename_i k hk
  have hreg := (getHandlerById_some hk).2
  have hheap := mem_free_heap s ((s.handlers k).callbacks.map CallbackList.addr)
  let created := (s.free ((s.handlers k).callbacks.map CallbackList.addr)).1.alloc list
  let x : Handler := { s.handlers k with callbacks := created.2.map fun a => ⟨a, [], none⟩ }
  refine ⟨.relist k x hreg.1 rfl rfl rfl (fun a ha => ?_) _ (fun a => ?_) ?_, ?_, fun j => ?_, ?_,
    fun handling => ?_, fun ids hids => ?_⟩
  · rw [new_list_addr] at ha
    have hfresh := alloc_fresh _ ha
    rw [hheap, not_and_not_right] at hfresh
    exact or_iff_not_imp_left.2 fun hmem => hfresh (not_not.1 hmem)
  · rw [new_list_addr]
    dsimp only
    rw [setHandler_heap, mem_alloc_heap, hheap]
  · dsimp only
    rw [setHandler_handlers, alloc_handlers, free_handlers]
  · dsimp only
    rw [setHandler_exec, alloc_exec, free_exec]
  · dsimp only
    rw [setHandler_handlers, alloc_handlers, free_handlers]
    refine update_cursor (no_cursor ?_) j
    rw [Option.bind_map]
    exact Option.bind_fun_none _
  · rw [List.any_append, free_freed _ fun a ha => h.held k a (.inl ha)]
    rfl
  · rw [List.any_append, free_called]
    rfl
  · intro id'
    rw [show noteRegistered ids (.call (.clearCallbacks id list)) _ = ids from rfl, hids id']
    dsimp only
    rw [setHandler_handlers, alloc_handlers, free_handlers]
    refine exists_congr fun j => ?_
    by_cases hj : j = k
    · rw [hj, Function.update_self]
      rfl
    · rw [Function.update_of_ne hj]

/-- **Every call** of the interface. -/
theorem call_does (h : Sound s) (hc : Careful s (.call c)) : Does s c (s.call c) := by
  rcases c with ⟨id, mlen, list, message⟩ | id | id | id | id | id | _ | _ | id |
    ⟨id, status, override⟩ | ⟨id, callback, node⟩ | ⟨id, list⟩ | id | id | id
  · exact register_does h hc
  · exact unregister_does h
  · rw [State.call]
    exact setHandlerStatus_does (fun ho => absurd ho (by decide)) fun _ _ => rfl
  · rw [State.call]
    exact setHandlerStatus_does (fun ho => absurd ho (by decide)) fun _ _ => rfl
  · rw [State.call]
    exact setHandlerStatus_does (fun ho => absurd ho (by decide)) fun _ _ => rfl
  · rw [State.call]
    exact setHandlerStatus_does (fun ho => absurd ho (by decide)) fun _ _ => rfl
  · exact changeAll_does (by decide) (by decide) fun _ _ => rfl
  · exact changeAll_does (by decide) (by decide) fun _ _ => rfl
  · rw [State.call]
    exact setHandlerStatus_does (fun _ he => absurd he (by decide)) fun _ _ => rfl
  · rw [State.call]
    refine setHandlerStatus_does (fun ho he => ?_) fun _ _ => rfl
    rcases override with _ | _
    · exact absurd ho (by decide)
    · exact hc he
  · exact addCallback_does
  · exact clearCallbacks_does h
  · rw [State.call]
    exact change_does (fun _ => ⟨.rfl, rfl, rfl, rfl⟩) (fun _ => rfl) fun _ _ => rfl
  · rw [State.call]
    exact change_does (fun _ => ⟨.rfl, rfl, rfl, rfl⟩) (fun _ => rfl) fun _ _ => rfl
  · rw [State.call]
    exact change_does (fun _ => ⟨.rfl, rfl, rfl, rfl⟩) (fun _ => rfl) fun _ _ => rfl

end Calls

/-! ## What messages do -/

/-- The callback that runs, if there is one, is for a message whose handler was active. -/
def Running (s : State) (handling : Option (UInt16 × Option Status)) : Prop :=
  ∀ e, s.exec = some e → ∃ id, handling = some (id, some .active) ∧
    ((s.handlers e.slot).HasCursor → (s.handlers e.slot).messageId = id)

/-- What holds when a message comes in and when a callback returns. -/
structure Works (s : State) (handling : Option (UInt16 × Option Status))
    (r : State × List Effect) : Prop where
  similar : s.Similar r.1
  freed : r.2.any Effect.isDoubleFree = false
  called : r.2.any (Effect.isStray handling) = false
  running : Running r.1 handling

section Messages

variable {s : State} {handling : Option (UInt16 × Option Status)} {k : Slot}

theorem works_edit {h : Handler} {r : Ret} (hexec : s.exec = none)
    (hs : (s.handlers k).Similar h) : Works s handling (s.setHandler k h, [.returned r]) where
  similar := similar_setHandler hs
  freed := rfl
  called := rfl
  running e he := by
    rw [setHandler_exec, hexec] at he
    exact absurd he (by simp)

theorem works_nothing {r : Ret} (hexec : s.exec = none) : Works s handling (s, [.returned r]) where
  similar := .refl s
  freed := rfl
  called := rfl
  running e he := by
    rw [hexec] at he
    exact absurd he (by simp)

theorem data_cursor {h : Handler} {cb : Callback} (hd : h.data = some cb) : h.HasCursor := by
  rw [Handler.data] at hd
  rw [Handler.HasCursor]
  rcases hl : h.callbacks with _ | l
  · rw [hl] at hd
    exact absurd hd (by simp)
  · rw [hl, Option.bind_some] at hd
    rw [Option.bind_some]
    rintro hc
    rw [hc] at hd
    exact absurd hd (by simp)

/-- The next callback is called, or the handler is marked as broken. -/
theorem callNext_works {s₀ : State} {e : Exec} {id : UInt16} (hs : s₀.Similar s)
    (hhandling : handling = some (id, some .active))
    (hid : (s.handlers e.slot).HasCursor → (s.handlers e.slot).messageId = id)
    (hempty : (s.handlers e.slot).status ≠ .empty) : Works s₀ handling (s.callNext e) := by
  rw [State.callNext]
  dsimp only
  split
  · rename_i cb hcb
    refine ⟨⟨hs.heap, hs.handler⟩, rfl, ?_, fun e' he' => ?_⟩
    · rw [List.any_cons, List.any_nil, Bool.or_false, Effect.isStray, hid (data_cursor hcb)]
      exact decide_eq_false (not_not.2 hhandling)
    · obtain rfl := Option.some.inj he'
      exact ⟨id, hhandling, hid⟩
  · have hbroken := hs.trans (similar_setHandler (k := e.slot)
      (h := { (s.handlers e.slot).caused .notFound with status := .broken })
      ⟨iff_of_false (by simp) hempty, rfl, rfl, rfl⟩)
    exact ⟨⟨hbroken.heap, hbroken.handler⟩, rfl, rfl, fun e' he' => absurd he' (by simp)⟩

theorem similar_moved (h : Handler) {f : CallbackList → CallbackList}
    (hf : ∀ l, (f l).addr = l.addr) : h.Similar (h.moved f) := by
  refine ⟨.rfl, rfl, ?_, rfl⟩
  rw [Handler.moved, Option.map_map]
  exact congrFun (congrArg Option.map (funext hf)) _

theorem toHead_addr (l : CallbackList) : l.toHead.addr = l.addr := by
  rw [CallbackList.toHead]
  split <;> rfl

theorem toNext_addr (l : CallbackList) : l.toNext.addr = l.addr := by
  rw [CallbackList.toNext]
  split
  · split <;> rfl
  · rfl

theorem toNext_cursor {h : Handler} (hc : (h.moved .toNext).HasCursor) : h.HasCursor := by
  rw [Handler.HasCursor, Handler.moved] at hc
  rw [Handler.HasCursor]
  rcases hl : h.callbacks with _ | l
  · rw [hl] at hc
    exact absurd rfl hc
  · rw [Option.bind_some]
    intro hnone
    rw [hl, Option.map_some, Option.bind_some, CallbackList.toNext, hnone] at hc
    exact hc hnone

/-- The loop over the callbacks begins. -/
theorem executeCallbacks_works {s₀ : State} (id : UInt16) (hs : s₀.Similar s)
    (hexec : s.exec = none) (hhandling : handling = some (id, some .active))
    (hid : (s.handlers k).messageId = id) (hempty : (s.handlers k).status ≠ .empty) :
    Works s₀ handling (s.executeCallbacks k) := by
  have hnothing : ∀ r, Works s₀ handling (s, [.returned r]) := fun r =>
    ⟨hs, rfl, rfl, fun e he => absurd (hexec.symm.trans he) (by simp)⟩
  rw [State.executeCallbacks]
  split
  · exact hnothing _
  split
  · exact hnothing _
  have hmoved := similar_moved (s.handlers k) toHead_addr
  refine callNext_works (hs.trans (similar_setHandler hmoved)) hhandling (fun _ => ?_) ?_
  · rw [setHandler_handlers, Function.update_self, hmoved.messageId]
    exact hid
  · rw [setHandler_handlers, Function.update_self, Ne, hmoved.empty]
    exact hempty

/-- **`oem_log_do_handle`.** -/
theorem doHandle_works {m : Message} (hexec : s.exec = none) :
    Works s (noteHandling s handling (.message m)) (s.doHandle m) := by
  rw [noteHandling, if_neg (by simp [hexec]), State.doHandle]
  split
  · exact works_nothing hexec
  rename_i k hk
  obtain ⟨hid, hreg⟩ := getHandlerById_some hk
  dsimp only
  split
  · exact works_nothing hexec
  rename_i hstatus
  split
  · exact works_edit hexec ⟨.rfl, rfl, rfl, rfl⟩
  split
  · exact works_edit hexec ⟨.rfl, rfl, rfl, rfl⟩
  split
  · exact works_edit hexec ⟨iff_of_false (by simp) hreg.1, rfl, rfl, rfl⟩
  split
  · exact works_edit hexec ⟨.rfl, rfl, rfl, rfl⟩
  rename_i hinactive
  have hactive : (s.handlers k).status = .active := by
    have hne := hreg.1
    change ¬(s.handlers k).status = .inactive at hinactive
    generalize (s.handlers k).status = status at *
    cases status <;> simp_all
  refine executeCallbacks_works m.messageId (similar_setHandler ?_) hexec ?_ ?_ ?_
  · exact ⟨.rfl, rfl, rfl, rfl⟩
  · rw [hk, Option.map_some, hactive]
  · rw [setHandler_handlers, Function.update_self]
    exact hreg.2
  · rw [setHandler_handlers, Function.update_self]
    exact hreg.1

/-- **The return of a callback.** -/
theorem callbackReturns_works {r : Ret} (hrunning : Running s handling)
    (hc : Careful s (.returns r)) : Works s handling (s.callbackReturns r) := by
  rw [State.callbackReturns]
  split
  · exact ⟨.refl s, rfl, rfl, hrunning⟩
  rename_i e he
  split
  · have hcaused := similar_setHandler (s := s) (k := e.slot)
      (h := (s.handlers e.slot).caused r) ⟨.rfl, rfl, rfl, rfl⟩
    exact ⟨⟨hcaused.heap, hcaused.handler⟩, rfl, rfl, fun e' he' => absurd he' (by simp)⟩
  rename_i hr
  obtain rfl := not_not.1 hr
  obtain ⟨id, hhandling, hid⟩ := hrunning e he
  have hmoved := similar_moved (s.handlers e.slot) toNext_addr
  have hsimilar := similar_setHandler hmoved
  dsimp only
  split
  · rename_i hlt
    refine callNext_works hsimilar hhandling ?_ ?_
    · rw [setHandler_handlers, Function.update_self, hmoved.messageId]
      exact fun hcursor => hid (toNext_cursor hcursor)
    · rw [setHandler_handlers, Function.update_self, Ne, hmoved.empty]
      exact hc e he hlt
  · exact ⟨⟨hsimilar.heap, hsimilar.handler⟩, rfl, rfl, fun e' he' => absurd he' (by simp)⟩

end Messages

/-! ## Runs -/

/-- The invariant of the table with its book. -/
structure Kept (w : Watched) : Prop where
  sound : Sound w.state
  running : Running w.state w.handling
  ids : Lists w.registered w.state
  freed : w.doubleFree = false
  called : w.strayCall = false

theorem kept_start : Kept .start where
  sound := ⟨fun _ h => absurd rfl h, fun _ _ _ h => absurd rfl h.1, fun _ _ => zero_owns,
    fun _ a h => absurd h (zero_owns a), fun _ h => absurd h (Finset.notMem_empty _),
    fun _ _ a h => absurd h (zero_owns a),
    fun _ _ h => absurd h (by simp [Watched.start, State.start, Handler.zero])⟩
  running _ he := absurd he (by simp [Watched.start, State.start])
  ids id := iff_of_false (Finset.notMem_empty id) (by simp [Watched.start, State.start,
    Handler.Registered, Handler.zero])
  freed := rfl
  called := rfl

theorem Does.kept {w : Watched} {c : Call} (h : Kept w)
    (hd : Does w.state c (w.state.call c)) : Kept (watched.step w (.call c)).1 where
  sound := h.sound.move hd.move
  running e he := by
    obtain ⟨id, hhandling, hid⟩ := h.running e (hd.exec ▸ he)
    refine ⟨id, hhandling, fun hc => ?_⟩
    obtain ⟨hcursor, hsame⟩ := hd.cursor _ hc
    exact hsame.trans (hid hcursor)
  ids := hd.ids _ h.ids
  freed := by
    change (w.doubleFree || _) = false
    rw [h.freed, Bool.false_or]
    exact hd.freed
  called := by
    change (w.strayCall || _) = false
    rw [h.called, Bool.false_or]
    exact hd.called _

theorem Works.kept {w : Watched} {i : Input} (h : Kept w) (hi : ∀ c, i ≠ .call c)
    (hw : Works w.state (noteHandling w.state w.handling i) (registry.step w.state i)) :
    Kept (watched.step w i).1 where
  sound := h.sound.edit hw.similar
  running := hw.running
  ids := by
    have hids := h.ids.similar hw.similar
    rcases i with c | m | r
    · exact absurd rfl (hi c)
    · exact hids
    · exact hids
  freed := by
    change (w.doubleFree || _) = false
    rw [h.freed, Bool.false_or]
    exact hw.freed
  called := by
    change (w.strayCall || _) = false
    rw [h.called, Bool.false_or]
    exact hw.called

/-- **Careful steps keep the invariant.** -/
theorem Kept.step {w : Watched} (h : Kept w) {i : Input} (hi : Careful w.state i) :
    Kept (watched.step w i).1 := by
  rcases i with c | m | r
  · exact (call_does h.sound hi).kept h
  · refine Works.kept h (fun c => by simp) ?_
    rw [registry]
    dsimp only
    split
    · rename_i hbusy
      rw [noteHandling, if_pos hbusy]
      exact ⟨.refl _, rfl, rfl, h.running⟩
    · rename_i hfree
      exact doHandle_works (Option.not_isSome_iff_eq_none.1 hfree)
  · exact Works.kept h (fun c => by simp) (callbackReturns_works h.running hi)

/-- An id is unregistered. -/
theorem unregister_lists {s : State} (h : Sound s) {ids : Finset UInt16} (hids : Lists ids s)
    (id : UInt16) : Lists (ids.erase id) (s.unregister id).1 := by
  have hunregister : Does s (.unregister id) (s.unregister id) := unregister_does h
  have hdoes := hunregister.ids ids hids
  rw [noteRegistered] at hdoes
  split at hdoes
  · exact hdoes
  · rename_i hnot
    rw [Finset.erase_eq_of_notMem]
    · exact hdoes
    intro hmem
    obtain ⟨k, hk⟩ := (hids id).1 hmem
    have hid : id ≠ 0 := hk.2 ▸ h.id k hk.1
    obtain ⟨j, hj⟩ := Option.isSome_iff_exists.1 (getHandlerById_isSome.2 ⟨hid, k, hk⟩)
    rw [State.unregister, hj] at hnot
    exact hnot (List.mem_append_right _ (List.mem_singleton.2 rfl))

/-- **All slots are free** when everything is unregistered. -/
theorem unregister_all {s : State} (h : Sound s) {ids : Finset UInt16} (hids : Lists ids s)
    (order : List UInt16) (horder : ∀ id ∈ ids, id ∈ order) (k : Slot) :
    ((registry.run s (order.map fun id => .call (.unregister id))).handlers k).status = .empty := by
  induction order generalizing s ids with
  | nil =>
    by_contra hk
    exact absurd (horder _ ((hids _).2 ⟨k, hk, rfl⟩)) List.not_mem_nil
  | cons id order ih =>
    refine ih (h.move (unregister_does h).move) (unregister_lists h hids id) fun id' hid' => ?_
    obtain ⟨hne, hmem⟩ := Finset.mem_erase.1 hid'
    exact (List.mem_cons.1 (horder id' hmem)).resolve_left hne

/-- The invariant says that the table is intact. -/
theorem Kept.intact {w : Watched} (h : Kept w) : Intact w where
  one := h.sound.one
  found id := by
    rw [h.ids id, getHandlerById_isSome, iff_and_self]
    rintro ⟨k, hk⟩
    exact hk.2 ▸ h.sound.id k hk.1
  owner a ha := by
    obtain ⟨k, hk⟩ := h.sound.owner a ha
    refine ⟨k, ⟨fun hempty => h.sound.clean k hempty a hk, hk⟩, ?_⟩
    rintro j ⟨-, hj⟩
    exact h.sound.oneOwner j k a hj hk
  held := h.sound.held
  freed := h.freed
  slots ids hids k := unregister_all h.sound h.ids ids hids k
  called := h.called

/-- A registration for id 0 is not found. -/
theorem careful_register {w : Watched} {id mlen : UInt16} {list message : Option Nat}
    (hc : Intact (watched.step w (.call (.register id mlen list message))).1) :
    Careful w.state (.call (.register id mlen list message)) := by
  rintro rfl
  by_contra! hnot
  obtain ⟨hslot, hlist, hmessage⟩ := hnot
  obtain ⟨k, hslot⟩ := Option.ne_none_iff_exists'.1 hslot
  obtain ⟨a, -, hlist'⟩ := (alloc_cases w.state list).resolve_left fun hnone =>
    hlist (by rw [hnone])
  rw [hlist'] at hmessage
  obtain ⟨b, -, hmessage'⟩ := (alloc_cases _ message).resolve_left fun hnone =>
    hmessage (by rw [hnone])
  have hreturned : .returned .ok ∈ (w.state.register 0 mlen list message).2 := by
    rw [State.register, if_neg (by simp [State.getHandlerById]), hslot]
    dsimp only
    rw [hlist']
    dsimp only
    rw [hmessage']
    exact List.mem_singleton.2 rfl
  have hfound := (hc.found 0).1
  refine absurd (hfound ?_) (by simp [State.getHandlerById])
  change 0 ∈ noteRegistered _ _ _
  rw [noteRegistered]
  exact (if_pos hreturned).symm ▸ Finset.mem_insert_self _ _

/-- A handler that is made empty is not found. -/
theorem careful_override {w : Watched} (h : Kept w) {id : UInt16} {status : UInt8}
    (hc : Intact (watched.step w (.call (.setStatus id status true))).1) :
    Careful w.state (.call (.setStatus id status true)) := by
  intro hempty
  by_contra hfound
  obtain ⟨k, hk⟩ := Option.ne_none_iff_exists'.1 hfound
  obtain ⟨hid, hreg⟩ := getHandlerById_some hk
  have hin : id ∈ w.registered := (h.ids id).2 ⟨k, hreg⟩
  have hstep : (watched.step w (.call (.setStatus id status true))).1.state =
      w.state.setHandler k { w.state.handlers k with status := .empty } := by
    change (w.state.setHandlerStatus id status .override).1 = _
    rw [State.setHandlerStatus, hempty]
    dsimp only
    rw [hk]
    dsimp only
    rw [if_pos (.inl rfl)]
  have hsome := (hc.found id).1 hin
  rw [hstep, getHandlerById_isSome] at hsome
  obtain ⟨-, j, hj⟩ := hsome
  rw [setHandler_handlers] at hj
  by_cases hjk : j = k
  · rw [hjk, Function.update_self] at hj
    exact hj.1 rfl
  · rw [Function.update_of_ne hjk] at hj
    exact hjk (h.sound.one j k id hj hreg)

/-- A handler with id 0 is never unregistered. -/
theorem unregister_zero {s : State} {k : Slot} (hk : (s.handlers k).messageId = 0)
    (order : List UInt16) :
    (registry.run s (order.map fun id => .call (.unregister id))).handlers k = s.handlers k := by
  induction order generalizing s with
  | nil => rfl
  | cons id order ih =>
    have hstep : (s.unregister id).1.handlers k = s.handlers k := by
      rw [State.unregister]
      split
      · rfl
      rename_i j hj
      obtain ⟨hid, hreg⟩ := getHandlerById_some hj
      have hne : k ≠ j := by
        rintro rfl
        exact hid (hreg.2.symm.trans hk)
      rw [State.purgeHandler]
      dsimp only
      rw [setHandler_handlers, Function.update_of_ne hne, free_handlers, free_handlers]
    exact (ih (hstep ▸ hk)).trans hstep

/-- A free slot that is marked as broken is taken, but not registered. -/
theorem careful_returns {w : Watched} (h : Kept w) {r : Ret}
    (hc : Intact (watched.step w (.returns r)).1) : Careful w.state (.returns r) := by
  cases r with
  | ok =>
    intro e he hlt hempty
    have hnone : (w.state.handlers e.slot).callbacks = none := by
      rw [← Option.map_eq_none_iff, Option.eq_none_iff_forall_ne_some]
      exact fun a ha => h.sound.clean e.slot hempty a (.inl ha)
    have hslot : ∃ x : Handler, x.status = .broken ∧
        (watched.step w (.returns .ok)).1.state.handlers =
          Function.update w.state.handlers e.slot x := by
      change ∃ x : Handler, _ ∧ (w.state.callbackReturns .ok).1.handlers = _
      rw [State.callbackReturns, he]
      dsimp only
      rw [if_neg (by simp), if_pos hlt, State.callNext]
      dsimp only
      rw [setHandler_handlers, Function.update_self, Handler.moved, hnone]
      exact ⟨_, rfl, Function.update_idem _ _ _⟩
    obtain ⟨x, hbroken, hhandlers⟩ := hslot
    have hreg : ((watched.step w (.returns .ok)).1.state.handlers e.slot).Registered
        x.messageId := by
      rw [hhandlers, Function.update_self]
      exact ⟨by simp [hbroken], rfl⟩
    by_cases hzero : x.messageId = 0
    · have hfree := hc.slots w.registered.toList (fun id hid => Finset.mem_toList.2 hid) e.slot
      rw [unregister_zero (by rw [hreg.2, hzero])] at hfree
      exact hreg.1 hfree
    · have hin := (hc.found x.messageId).2 (getHandlerById_isSome.2 ⟨hzero, e.slot, hreg⟩)
      obtain ⟨j, hj⟩ := (h.ids x.messageId).1 hin
      have hne : j ≠ e.slot := by
        rintro rfl
        exact hj.1 hempty
      refine hne (hc.one j e.slot x.messageId ?_ hreg)
      rw [hhandlers, Function.update_of_ne hne]
      exact hj
  | _ => trivial

/-- **A run keeps the table intact** exactly if every step of it does no harm. -/
theorem registry_intact_iff (is : List Input) :
    (∀ pre, pre <+: is → Intact (watched.run .start pre)) ↔
      ∀ pre i, pre ++ [i] <+: is → Careful (watched.run .start pre).state i := by
  refine watched.weak_invariant_iff (Q := fun w i => Careful w.state i) kept_start
    (fun _ => Kept.intact) (fun w i h hc => ?_) (fun _ _ h hi => h.step hi) is
  rcases i with c | m | r
  · rcases c with _ | _ | _ | _ | _ | _ | _ | _ | _ | ⟨id, status, override⟩ | _ | _ | _ | _ | _
    · exact careful_register hc
    case setStatus =>
      rcases override with _ | _
      · trivial
      · exact careful_override h hc
    all_goals trivial
  · trivial
  · exact careful_returns h hc

/-- A handler with id 0 can be registered twice, and is not found. -/
theorem registered_for_zero : ¬∀ is : List Input, Intact (watched.run .start is) := by
  intro h
  have hone := (h [.call (.register 0 0 (some 0) (some 1)),
    .call (.register 0 0 (some 2) (some 3))]).one
  exact absurd (hone ⟨0, by decide⟩ ⟨1, by decide⟩ 0 ⟨by decide, rfl⟩ ⟨by decide, rfl⟩) (by decide)

end Log
end FlightApps
