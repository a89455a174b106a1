import Dvrft.Checked
import Dvrft.Texts

/-!
The host side of a descrambler plugin. The guest is whatever the plugin file
makes of it: each of its exports may answer any `i32` or trap, and may leave
any contents in the linear memory, which never shrinks. The host trusts the
pointer that the guest's `allocate` answers as far as one comparison.
-/

namespace Dvrft.Sandbox

open Machine Texts

inductive SandboxError where
  | missingExport (name : String)
  | executionTimeout (ms : ℕ)
  | memoryLimitExceeded (limit : ℕ)
  | executionTrap (text : String)
  | other (text : String)
  deriving DecidableEq, Repr

structure PluginLimits where
  maxMemoryBytes : ℕ := 16 * 1024 * 1024
  timeoutMs : ℕ := 200
  deriving DecidableEq, Repr

/-- How a guest call failed. -/
structure WasmError where
  /-- The error is `Trap::Interrupt`. -/
  interrupt : Bool
  text : String
  deriving DecidableEq, Repr

/-- The guest between two calls. -/
structure Store (σ : Type) where
  memory : List UInt8
  rest : σ

/-- An exported function of the guest. -/
structure Export (σ α β : Type) where
  call : Store σ → α → Except WasmError β × Store σ
  /-- Linear memory never shrinks. -/
  grows : ∀ store args, store.memory.length ≤ (call store args).2.memory.length

/-- A compiled module. Exports of another type count as missing. -/
structure Module (σ : Type) where
  instantiate : PluginLimits → Except WasmError (Store σ)
  allocate : Option (Export σ Int32 Int32)
  descramble : Option (Export σ (Int32 × Int32) Int32)
  exportsMemory : Bool

structure DescramblePlugin (σ : Type) where
  guest : Module σ
  limits : PluginLimits

/-- A byte slice; no object is longer than `isize::MAX`. -/
structure Payload where
  bytes : List UInt8
  length_lt : bytes.length < 2 ^ 63

/-- `i as usize`, on a machine of 64 bits. -/
def asUsize (i : Int32) : ℕ := (i.toInt % 2 ^ 64).toNat

/-- `memory[start..stop].copy_from_slice(data)`. -/
def writeSlice {ε : Type} (memory : List UInt8) (start stop : ℕ) (data : List UInt8) :
    Outcome ε (List UInt8) :=
  if start ≤ stop ∧ stop ≤ memory.length ∧ data.length = stop - start then
    .ok (memory.take start ++ data ++ memory.drop stop)
  else panicked

variable {σ : Type}

namespace DescramblePlugin

def translateWasmError (plugin : DescramblePlugin σ) (err : WasmError) : SandboxError :=
  if err.interrupt then .executionTimeout plugin.limits.timeoutMs
  else if textContains err.text "interrupt" || textContains err.text "epoch" then
    .executionTimeout plugin.limits.timeoutMs
  else if textContains err.text "resource limit" || textContains err.text "memory" then
    .memoryLimitExceeded plugin.limits.maxMemoryBytes
  else .executionTrap err.text

/-- The answer of a guest call, its failure translated. -/
def answer {α : Type} (plugin : DescramblePlugin σ) : Except WasmError α → Outcome SandboxError α
  | .ok a => .ok a
  | .error err => fail (plugin.translateWasmError err)

def require {α : Type} (name : String) : Option α → Outcome SandboxError α
  | some a => .ok a
  | none => fail (.missingExport name)

/-- The guest's answer to the request for a buffer. -/
structure Reservation (σ : Type) where
  descramble : Export σ (Int32 × Int32) Int32
  guestPtr : Int32
  store : Store σ

/-- `scrambled_payload.len() as i32`. -/
def lengthArg (payload : Payload) : Int32 := Int32.ofNat payload.bytes.length

/-- The first part of `descramble`: the instance, its exports and the buffer. -/
def reserve (plugin : DescramblePlugin σ) (payload : Payload) :
    Outcome SandboxError (Reservation σ) := do
  let store ← plugin.answer (plugin.guest.instantiate plugin.limits)
  let allocate ← require "allocate" plugin.guest.allocate
  let descramble ← require "descramble" plugin.guest.descramble
  require "memory" (if plugin.guest.exportsMemory then some () else none)
  let reply := allocate.call store (lengthArg payload)
  let guestPtr ← plugin.answer reply.1
  .ok ⟨descramble, guestPtr, reply.2⟩

/-- The rest of `descramble`: the payload goes in, the guest works on it, and as
many bytes come out. The call of `deallocate` comes after the result has been
copied, and what it answers is dropped. -/
def exchange (plugin : DescramblePlugin σ) (build : Build) (payload : Payload)
    (reserved : Reservation σ) : Outcome SandboxError (List UInt8) := do
  let offset := asUsize reserved.guestPtr
  let stop ← build.add offset payload.bytes.length
  if stop > reserved.store.memory.length then
    fail (.memoryLimitExceeded plugin.limits.maxMemoryBytes)
  else
    let stop ← build.add offset payload.bytes.length
    let memory ← writeSlice reserved.store.memory offset stop payload.bytes
    let reply := reserved.descramble.call ⟨memory, reserved.store.rest⟩
      (reserved.guestPtr, lengthArg payload)
    let ret ← plugin.answer reply.1
    if ret ≠ 0 then
      fail (.other ("Descrambler plugin returned non-zero error code: " ++ toString ret))
    else
      let stop ← build.add offset payload.bytes.length
      slice reply.2.memory offset stop

def descramble (plugin : DescramblePlugin σ) (build : Build) (payload : Payload) :
    Outcome SandboxError (List UInt8) := do
  let reserved ← plugin.reserve payload
  plugin.exchange build payload reserved

end DescramblePlugin

theorem asUsize_of_nonneg {i : Int32} (h : 0 ≤ i.toInt) : (asUsize i : ℤ) = i.toInt := by
  have hlt := i.toInt_lt
  unfold asUsize
  omega

theorem asUsize_of_neg {i : Int32} (h : i.toInt < 0) : (asUsize i : ℤ) = i.toInt + 2 ^ 64 := by
  have hle := i.le_toInt
  unfold asUsize
  omega

/-- The host's addition stays in range for the pointers that are not negative
and for those that a payload does not carry over zero. -/
theorem asUsize_add_lt_iff (i : Int32) (payload : Payload) :
    asUsize i + payload.bytes.length < 2 ^ 64 ↔
      0 ≤ i.toInt ∨ i.toInt + payload.bytes.length < 0 := by
  have hlt := i.toInt_lt
  have hpayload := payload.length_lt
  rcases le_or_gt 0 i.toInt with hnonneg | hneg
  · have hptr := asUsize_of_nonneg hnonneg
    omega
  · have hptr := asUsize_of_neg hneg
    omega

theorem length_writeSlice {ε : Type} {memory data out : List UInt8} {start stop : ℕ}
    (h : (writeSlice memory start stop data : Outcome ε (List UInt8)) = .ok out) :
    out.length = memory.length := by
  unfold writeSlice at h
  split_ifs at h with hfits
  · obtain ⟨hle, hstop, hdata⟩ := hfits
    rw [← Except.ok.inj h]
    simp only [List.length_append, List.length_take, List.length_drop]
    omega
  · simp [panicked] at h

theorem writeSlice_of_le {ε : Type} {memory data : List UInt8} {start stop : ℕ}
    (hle : start ≤ stop) (hstop : stop ≤ memory.length) (hdata : data.length = stop - start) :
    ∃ out, (writeSlice memory start stop data : Outcome ε (List UInt8)) = .ok out :=
  ⟨_, if_pos ⟨hle, hstop, hdata⟩⟩

theorem writeSlice_of_lt {ε : Type} {memory data : List UInt8} {start stop : ℕ}
    (h : stop < start) :
    (writeSlice memory start stop data : Outcome ε (List UInt8)) = panicked :=
  if_neg fun hfits => absurd hfits.1 (Nat.not_le.mpr h)

variable (plugin : DescramblePlugin σ) (payload : Payload)
  (reserved : DescramblePlugin.Reservation σ)

theorem answer_ne_panicked {α : Type} (reply : Except WasmError α) :
    plugin.answer reply ≠ panicked := by
  cases reply with
  | ok a => exact ok_ne_panicked a
  | error err => exact fail_ne_panicked _

theorem require_ne_panicked {α : Type} (name : String) (found : Option α) :
    DescramblePlugin.require name found ≠ panicked := by
  cases found with
  | some a => exact ok_ne_panicked a
  | none => exact fail_ne_panicked _

theorem reserve_ne_panicked : plugin.reserve payload ≠ panicked := by
  unfold DescramblePlugin.reserve
  refine bind_ne_panicked_iff.mpr ⟨answer_ne_panicked plugin _, ?_⟩
  intro store _
  refine bind_ne_panicked_iff.mpr ⟨require_ne_panicked _ _, ?_⟩
  intro allocate _
  refine bind_ne_panicked_iff.mpr ⟨require_ne_panicked _ _, ?_⟩
  intro descramble _
  refine bind_ne_panicked_iff.mpr ⟨require_ne_panicked _ _, ?_⟩
  intro _ _
  refine bind_ne_panicked_iff.mpr ⟨answer_ne_panicked plugin _, ?_⟩
  intro guestPtr _
  exact ok_ne_panicked _

/-- In range, every slice of the exchange is one of the memory it is taken from,
whatever the guest did in between. -/
theorem exchange_of_fits (build : Build)
    (hfits : asUsize reserved.guestPtr + payload.bytes.length < 2 ^ 64) :
    plugin.exchange build payload reserved ≠ panicked := by
  unfold DescramblePlugin.exchange
  simp only [Build.add_of_lt build hfits, ok_bind]
  split_ifs with hmemory
  · exact fail_ne_panicked _
  · obtain ⟨memory, hwrite⟩ := @writeSlice_of_le SandboxError _ _ _ _
      (Nat.le_add_right (asUsize reserved.guestPtr) payload.bytes.length)
      (Nat.le_of_not_gt hmemory) (Nat.add_sub_cancel_left ..).symm
    simp only [hwrite, ok_bind]
    refine bind_ne_panicked_iff.mpr ⟨answer_ne_panicked plugin _, ?_⟩
    intro ret _
    split_ifs with hret
    · exact fail_ne_panicked _
    · have hgrows := reserved.descramble.grows ⟨memory, reserved.store.rest⟩
        (reserved.guestPtr, DescramblePlugin.lengthArg payload)
      have hlength := length_writeSlice hwrite
      dsimp only at hgrows
      rw [slice_of_le (Nat.le_add_right _ _) (by omega)]
      exact ok_ne_panicked _

/-- Out of range, a build with overflow checks stops at the addition, and one
without them at the first slice, unless the wrapped sum is beyond the memory. -/
theorem exchange_of_overflow (build : Build)
    (hover : 2 ^ 64 ≤ asUsize reserved.guestPtr + payload.bytes.length) :
    plugin.exchange build payload reserved =
      if build = .release ∧ (reserved.store.memory.length : ℤ) <
          reserved.guestPtr.toInt + payload.bytes.length then
        fail (.memoryLimitExceeded plugin.limits.maxMemoryBytes)
      else panicked := by
  have hneg : reserved.guestPtr.toInt < 0 := by
    have hout := (asUsize_add_lt_iff reserved.guestPtr payload).not.mp (by omega)
    omega
  have hptr := asUsize_of_neg hneg
  have hpayload := payload.length_lt
  unfold DescramblePlugin.exchange
  cases build with
  | debug =>
    simp only [Build.debug_add_of_le hover, reduceCtorEq, false_and, if_false]
    rfl
  | release =>
    simp only [Build.release_add_of_le hover, ok_bind, true_and]
    have hbeyond : (asUsize reserved.guestPtr + payload.bytes.length) % 2 ^ 64 >
        reserved.store.memory.length ↔ (reserved.store.memory.length : ℤ) <
          reserved.guestPtr.toInt + payload.bytes.length := by omega
    -- The wrapped sum lies below the offset, so no slice has these bounds.
    have hbackwards : (asUsize reserved.guestPtr + payload.bytes.length) % 2 ^ 64 <
        asUsize reserved.guestPtr := by omega
    rw [if_congr hbeyond rfl rfl, writeSlice_of_lt hbackwards]
    rfl

/-- An exchange that succeeds gives back as many bytes as went in. -/
theorem length_of_exchange_ok {build : Build} {out : List UInt8}
    (h : plugin.exchange build payload reserved = .ok out) :
    out.length = payload.bytes.length := by
  by_cases hfits : asUsize reserved.guestPtr + payload.bytes.length < 2 ^ 64
  · unfold DescramblePlugin.exchange at h
    simp only [Build.add_of_lt build hfits, ok_bind] at h
    split_ifs at h with hmemory
    · simp [fail] at h
    · obtain ⟨memory, -, h⟩ := bind_ok.mp h
      obtain ⟨ret, -, h⟩ := bind_ok.mp h
      split_ifs at h with hret
      · simp [fail] at h
      · unfold slice at h
        split_ifs at h with hslice
        · rw [← Except.ok.inj h, List.length_take, List.length_drop]
          omega
        · simp [panicked] at h
  · rw [exchange_of_overflow plugin payload reserved build (Nat.le_of_not_lt hfits)] at h
    split_ifs at h <;> simp [fail, panicked] at h

theorem length_of_descramble_ok {build : Build} {out : List UInt8}
    (h : plugin.descramble build payload = .ok out) : out.length = payload.bytes.length := by
  obtain ⟨reserved, -, h⟩ := bind_ok.mp h
  exact length_of_exchange_ok plugin payload reserved h

/-- When a build survives its guest: on a pointer that is in range, and without
overflow checks also on one whose wrapped sum exceeds the memory. -/
theorem descramble_ne_panicked_iff (build : Build) :
    plugin.descramble build payload ≠ panicked ↔
      ∀ reserved, plugin.reserve payload = .ok reserved →
        0 ≤ reserved.guestPtr.toInt ∨
          reserved.guestPtr.toInt + payload.bytes.length < 0 ∨
          (build = .release ∧ (reserved.store.memory.length : ℤ) <
            reserved.guestPtr.toInt + payload.bytes.length) := by
  constructor
  · intro hsafe reserved hreserved
    by_cases hfits : asUsize reserved.guestPtr + payload.bytes.length < 2 ^ 64
    · rcases (asUsize_add_lt_iff _ _).mp hfits with hnonneg | hnegative
      · exact .inl hnonneg
      · exact .inr (.inl hnegative)
    · right
      right
      by_contra hnot
      apply hsafe
      rw [DescramblePlugin.descramble, hreserved, ok_bind,
        exchange_of_overflow _ _ _ _ (Nat.le_of_not_lt hfits), if_neg hnot]
  · intro hptr
    refine bind_ne_panicked_iff.mpr ⟨reserve_ne_panicked plugin payload, ?_⟩
    intro reserved hreserved
    by_cases hfits : asUsize reserved.guestPtr + payload.bytes.length < 2 ^ 64
    · exact exchange_of_fits plugin payload reserved build hfits
    · have hout := (asUsize_add_lt_iff _ _).not.mp hfits
      have hbeyond := (hptr reserved hreserved).resolve_left fun h => hout (.inl h)
      rw [exchange_of_overflow _ _ _ _ (Nat.le_of_not_lt hfits),
        if_pos (hbeyond.resolve_left fun h => hout (.inr h))]
      exact fail_ne_panicked _

/-- The host ends with a result of the payload's length or with an error, and no
sum of it overflows, exactly when the pointer of the guest is not negative or
the payload does not carry it over zero. -/
theorem descramble_isolated_iff :
    (∀ build, (∃ out, plugin.descramble build payload = .ok out ∧
        out.length = payload.bytes.length) ∨ ∃ e, plugin.descramble build payload = fail e) ↔
      ∀ reserved, plugin.reserve payload = .ok reserved →
        0 ≤ reserved.guestPtr.toInt ∨ reserved.guestPtr.toInt + payload.bytes.length < 0 := by
  have hends : ∀ build, ((∃ out, plugin.descramble build payload = .ok out ∧
      out.length = payload.bytes.length) ∨ ∃ e, plugin.descramble build payload = fail e) ↔
        plugin.descramble build payload ≠ panicked := by
    intro build
    cases hrun : plugin.descramble build payload with
    | ok out => simp [length_of_descramble_ok plugin payload hrun, panicked]
    | error failure => cases failure <;> simp [fail, panicked]
  simp only [hends, descramble_ne_panicked_iff]
  constructor
  · intro hsafe reserved hreserved
    have hdebug := hsafe .debug reserved hreserved
    simpa using hdebug
  · intro hptr build reserved hreserved
    rcases hptr reserved hreserved with hnonneg | hnegative
    · exact .inl hnonneg
    · exact .inr (.inl hnegative)

/-- A guest whose `allocate` answers a given pointer and whose `descramble`
leaves its one page of memory as it is. -/
def pointing (guestPtr : Int32) : DescramblePlugin Unit where
  guest :=
    { instantiate := fun _ => .ok ⟨List.replicate 65536 0, ()⟩
      allocate := some ⟨fun store _ => (.ok guestPtr, store), fun _ _ => Nat.le_refl _⟩
      descramble := some ⟨fun store _ => (.ok 0, store), fun _ _ => Nat.le_refl _⟩
      exportsMemory := true }
  limits := {}

/-- The pointer of minus one ends the host, with overflow checks and without. -/
theorem pointing_back_panics :
    (pointing (-1)).descramble .debug ⟨[90], by decide⟩ = panicked ∧
      (pointing (-1)).descramble .release ⟨[90], by decide⟩ = panicked := by
  have hall : ∀ build, (pointing (-1)).descramble build ⟨[90], by decide⟩ = panicked := by
    intro build
    by_contra hsafe
    have hptr := (descramble_ne_panicked_iff _ _ _).mp hsafe
      ⟨⟨fun store _ => (.ok 0, store), fun _ _ => Nat.le_refl _⟩, -1,
        ⟨List.replicate 65536 0, ()⟩⟩ rfl
    have hvalue : (-1 : Int32).toInt = -1 := by decide
    simp only [hvalue, List.length_replicate, List.length_singleton] at hptr
    omega
  exact ⟨hall .debug, hall .release⟩

end Dvrft.Sandbox
