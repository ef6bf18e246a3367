import CasseOS.Lib.Run
import CasseOS.Boot.Uefi

/-! # Leaving the boot services (`bootloader/uefi/main.c`)

`exit_boot_services` asks for the memory map until it fits and until its key is
accepted. The calls it makes are events with the answers of the firmware; a monitor
follows the pool buffers and the last key, and stops at a call that is no good. -/

namespace CasseOS.Boot
open Run

/- What `GetMemoryMap` writes; what it leaves as it was is an answer that repeats it. -/
structure MapAnswer where
  status : Status
  size : UInt64
  key : UInt64
  descriptorSize : UInt64

structure PoolAnswer where
  status : Status
  buffer : UInt64

inductive Call where
  | getMemoryMap (size map : UInt64) (answer : MapAnswer)
  | allocatePool (size : UInt64) (answer : PoolAnswer)
  | freePool (buffer : UInt64)
  | exitBootServices (key : UInt64) (answer : Status)

/- The answers in one round of the loop, as far as it asks for them. -/
structure Round where
  map : MapAnswer
  pool : PoolAnswer
  exit : Status

/- `map_size` and `memory_map`. -/
structure MapBuffer where
  mapSize : UInt64
  memoryMap : UInt64

/- `if (memory_map) bs->FreePool(memory_map);` -/
def freeMap (memoryMap : UInt64) : List Call :=
  if memoryMap ≠ 0 then [.freePool memoryMap] else []

/-- The body of the loop (`main.c:139-168`): its calls, and the status it returns or
the variables it goes on with. -/
def exitRound (r : Round) (v : MapBuffer) : List Call × (Status ⊕ MapBuffer) :=
  let asked := Call.getMemoryMap v.mapSize v.memoryMap r.map
  if r.map.status = efiBufferTooSmall then
    let mapSize := r.map.size + r.map.descriptorSize * 2
    let calls := asked :: (freeMap v.memoryMap ++ [.allocatePool mapSize r.pool])
    if efiError r.pool.status then (calls, .inl r.pool.status)
    else (calls, .inr ⟨mapSize, r.pool.buffer⟩)
  else if efiError r.map.status then (asked :: freeMap v.memoryMap, .inl r.map.status)
  else
    let calls := [asked, .exitBootServices r.map.key r.exit]
    if efiError r.exit then
      if r.exit = efiInvalidParameter then (calls, .inr ⟨r.map.size, v.memoryMap⟩)
      else (calls ++ freeMap v.memoryMap, .inl r.exit)
    else (calls, .inl efiSuccess)

/- The loop, with the answers there are; `none` where it still goes on after them. -/
def exitLoop : List Round → MapBuffer → List Call × Option Status
  | [], _ => ([], none)
  | r :: rounds, v =>
    match exitRound r v with
    | (calls, .inl status) => (calls, some status)
    | (calls, .inr v) => (calls ++ (exitLoop rounds v).1, (exitLoop rounds v).2)

/-- `exit_boot_services` (`main.c:130-172`). -/
def exitBootServices (rounds : List Round) : List Call × Option Status := exitLoop rounds ⟨0, 0⟩

/-! ### The firmware's side -/

/- The sizes of the pool buffers in use, and the key of a memory map since which
nothing else was called. -/
structure Pool where
  live : UInt64 → Option UInt64
  key : Option UInt64

/- No buffer is in use. -/
def noBuffers : UInt64 → Option UInt64 := fun _ => none

/- A map of this size may be written there: to no buffer, or into one that has room. -/
def Pool.Room (p : Pool) (size map : UInt64) : Prop :=
  map = 0 ∨ ∃ room ∈ p.live map, size ≤ room

instance (p : Pool) (size map : UInt64) : Decidable (p.Room size map) :=
  inferInstanceAs (Decidable (map = 0 ∨ ∃ room ∈ p.live map, size ≤ room))

/- One call; `none` for a map that has no room, a buffer that is not in use, or a key
that is not the one of the call just before. NULL is never a buffer. -/
def Pool.call (p : Pool) : Call → Option Pool
  | .getMemoryMap size map answer =>
    if p.Room size map then
      some {p with key := if efiError answer.status then none else some answer.key}
    else none
  | .allocatePool size answer =>
    if efiError answer.status then some {p with key := none}
    else if answer.buffer = 0 then some {p with key := none}
    else some ⟨Function.update p.live answer.buffer (some size), none⟩
  | .freePool buffer =>
    if (p.live buffer).isSome then some ⟨Function.update p.live buffer none, none⟩ else none
  | .exitBootServices key _ => if p.key = some key then some {p with key := none} else none

/- What the firmware promises: a map is no larger than the buffer it was given. -/
def Call.Documented : Call → Prop
  | .getMemoryMap size _ answer => efiError answer.status = false → answer.size ≤ size
  | .allocatePool _ _ => True
  | .freePool _ => True
  | .exitBootServices _ _ => True

instance : (call : Call) → Decidable call.Documented
  | .getMemoryMap size _ answer =>
    inferInstanceAs (Decidable (efiError answer.status = false → answer.size ≤ size))
  | .allocatePool _ _ => .isTrue trivial
  | .freePool _ => .isTrue trivial
  | .exitBootServices _ _ => .isTrue trivial

/-! ### A round -/

/- Between two rounds the only buffer in use is that of the map, and `map_size` is at
most its size. -/
inductive Owns (live : UInt64 → Option UInt64) (v : MapBuffer) : Prop where
  | unmapped (map : v.memoryMap = 0) (empty : live = noBuffers)
  | mapped (size : UInt64) (map : v.memoryMap ≠ 0) (fits : v.mapSize ≤ size)
      (only : live = Function.update noBuffers v.memoryMap (some size))

theorem noBuffers_update (buffer : UInt64) (size : Option UInt64) :
    Function.update (Function.update noBuffers buffer size) buffer none = noBuffers := by
  rw [Function.update_idem]
  exact Function.update_eq_self buffer noBuffers

section Calls
variable {p : Pool} {v : MapBuffer}

theorem Owns.room (h : Owns p.live v) : p.Room v.mapSize v.memoryMap := by
  cases h with
  | unmapped map empty => exact .inl map
  | mapped size map fits only => exact .inr ⟨size, by rw [only, Function.update_self]; rfl, fits⟩

theorem Owns.getMemoryMap (h : Owns p.live v) (answer : MapAnswer) :
    p.call (.getMemoryMap v.mapSize v.memoryMap answer) =
      some {p with key := if efiError answer.status then none else some answer.key} := by
  rw [Pool.call, if_pos h.room]

/- After `if (memory_map) bs->FreePool(memory_map);` no buffer is left. -/
theorem Owns.freeMap (h : Owns p.live v) (key : Option UInt64) :
    ∃ key', exec Pool.call {p with key} (freeMap v.memoryMap) = some ⟨noBuffers, key'⟩ := by
  cases h with
  | unmapped map empty =>
    refine ⟨key, ?_⟩
    rw [Boot.freeMap, if_neg (not_not.mpr map), exec, empty]
  | mapped size map fits only =>
    refine ⟨none, ?_⟩
    rw [Boot.freeMap, if_pos map, exec, Pool.call, only, Function.update_self, Option.isSome_some,
      if_pos rfl, noBuffers_update]
    rfl

end Calls

/- How a round ends: it goes on with its buffer, or returns with no buffer in use if
it returns an error. -/
def RoundEnds (p : Pool) : Status ⊕ MapBuffer → Prop
  | .inl status => efiError status = true → p.live = noBuffers
  | .inr v => Owns p.live v

theorem exitRound_spec (r : Round) {p : Pool} {v : MapBuffer} (h : Owns p.live v)
    (hdoc : ∀ call ∈ (exitRound r v).1, call.Documented) :
    ∃ p', exec Pool.call p (exitRound r v).1 = some p' ∧ RoundEnds p' (exitRound r v).2 := by
  have hmap := h.getMemoryMap r.map
  rw [exitRound] at hdoc ⊢
  dsimp only at hdoc ⊢
  by_cases hsmall : r.map.status = efiBufferTooSmall
  · -- the old buffer is freed before there is a new one
    obtain ⟨key, hfree⟩ := h.freeMap (if efiError r.map.status then none else some r.map.key)
    rw [if_pos hsmall] at hdoc ⊢
    by_cases hpool : efiError r.pool.status = true
    · rw [if_pos hpool, exec, hmap, Option.bind_some, exec_append, hfree, Option.bind_some, exec,
        Pool.call, if_pos hpool]
      exact ⟨_, rfl, fun _ => rfl⟩
    · rw [if_neg hpool, exec, hmap, Option.bind_some, exec_append, hfree, Option.bind_some, exec,
        Pool.call, if_neg hpool]
      by_cases hbuffer : r.pool.buffer = 0
      · rw [if_pos hbuffer]
        exact ⟨_, rfl, .unmapped hbuffer rfl⟩
      · rw [if_neg hbuffer]
        exact ⟨_, rfl, .mapped _ hbuffer (UInt64.le_refl _) rfl⟩
  rw [if_neg hsmall] at hdoc ⊢
  by_cases hfail : efiError r.map.status = true
  · obtain ⟨key, hfree⟩ := h.freeMap (if efiError r.map.status then none else some r.map.key)
    rw [if_pos hfail, exec, hmap, Option.bind_some, hfree]
    exact ⟨_, rfl, fun _ => rfl⟩
  rw [if_neg hfail] at hdoc ⊢
  rw [if_neg hfail] at hmap
  have hexit : exec Pool.call p [.getMemoryMap v.mapSize v.memoryMap r.map,
      .exitBootServices r.map.key r.exit] = some {p with key := none} := by
    rw [exec, hmap, Option.bind_some, exec, Pool.call, if_pos rfl]
    rfl
  by_cases hrefused : efiError r.exit = true
  · rw [if_pos hrefused] at hdoc ⊢
    by_cases hagain : r.exit = efiInvalidParameter
    · -- the same buffer, with the size of the map that was in it
      rw [if_pos hagain] at hdoc ⊢
      have hfits : r.map.size ≤ v.mapSize :=
        hdoc (.getMemoryMap v.mapSize v.memoryMap r.map) (by simp) (eq_false_of_ne_true hfail)
      refine ⟨_, hexit, ?_⟩
      cases h with
      | unmapped map empty => exact .unmapped map empty
      | mapped size map fits only => exact .mapped size map (UInt64.le_trans hfits fits) only
    · obtain ⟨key, hfree⟩ := h.freeMap none
      rw [if_neg hagain, exec_append, hexit, Option.bind_some, hfree]
      exact ⟨_, rfl, fun _ => rfl⟩
  · rw [if_neg hrefused]
    exact ⟨_, hexit, fun herror => absurd herror (by decide)⟩

/-! ### The loop -/

theorem exitLoop_spec (rounds : List Round) {p : Pool} {v : MapBuffer} (h : Owns p.live v)
    (hdoc : ∀ call ∈ (exitLoop rounds v).1, call.Documented) :
    ∃ p', exec Pool.call p (exitLoop rounds v).1 = some p' ∧
      ∀ status ∈ (exitLoop rounds v).2, efiError status = true → p'.live = noBuffers := by
  induction rounds generalizing p v with
  | nil => exact ⟨p, rfl, fun status hs => by cases hs⟩
  | cons r rounds ih =>
    have hround := exitRound_spec r h
    rw [exitLoop] at hdoc ⊢
    generalize exitRound r v = e at hround hdoc ⊢
    obtain ⟨calls, status | w⟩ := e
    · obtain ⟨p', hexec, hends⟩ := hround hdoc
      refine ⟨p', hexec, fun s hs herror => hends ?_⟩
      cases hs
      exact herror
    · dsimp only at hdoc ⊢
      obtain ⟨p₁, hexec, howns⟩ := hround fun call hc => hdoc call (List.mem_append_left _ hc)
      obtain ⟨p', hrest, hends⟩ := ih howns fun call hc => hdoc call (List.mem_append_right _ hc)
      refine ⟨p', ?_, hends⟩
      rw [exec_append, hexec, Option.bind_some, hrest]

/-- On every run of the firmware that keeps its promises, no call is stopped: a map has
room in the buffer it is written to, `ExitBootServices` gets the key of the call just
before it, and a buffer is freed once and not used after that. A run that returns an
error leaves no buffer. -/
theorem exit_boot_services_protocol (rounds : List Round)
    (hdoc : ∀ call ∈ (exitBootServices rounds).1, call.Documented) :
    ∃ p, exec Pool.call ⟨noBuffers, none⟩ (exitBootServices rounds).1 = some p ∧
      ∀ status ∈ (exitBootServices rounds).2, efiError status = true → p.live = noBuffers :=
  exitLoop_spec rounds (.unmapped rfl rfl) hdoc

/- A map that needs a buffer, then a key that is refused, then one that is accepted. -/
def threeRounds : List Round :=
  [⟨⟨efiBufferTooSmall, 960, 0, 48⟩, ⟨efiSuccess, 0x7000⟩, 0⟩,
    ⟨⟨efiSuccess, 960, 5, 48⟩, ⟨efiSuccess, 0⟩, efiInvalidParameter⟩,
    ⟨⟨efiSuccess, 912, 6, 48⟩, ⟨efiSuccess, 0⟩, efiSuccess⟩]

theorem exit_boot_services_protocol_three :
    ∃ p, exec Pool.call ⟨noBuffers, none⟩ (exitBootServices threeRounds).1 = some p ∧
      ∀ status ∈ (exitBootServices threeRounds).2, efiError status = true → p.live = noBuffers :=
  exit_boot_services_protocol threeRounds (by
    intro call hcall
    change call ∈ [_, _, _, _, _, _] at hcall
    simp only [List.mem_cons, List.not_mem_nil, or_false] at hcall
    obtain rfl | rfl | rfl | rfl | rfl | rfl := hcall <;> decide)

end CasseOS.Boot
