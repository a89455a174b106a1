import Dvrft.Descrambler
import Dvrft.Sandbox

/-!
The reference descrambler inside the sandbox: the host's protocol of allocating, copying in,
calling and copying out, with the plugin of the synthetic format as the guest. Whatever the
guest's allocator does within its contract, what comes out is the payload under the key,
unless the deadline passes first.
-/

namespace Dvrft.Sandbox

def SandboxError.text : SandboxError → String
  | .missingExport name => "Missing required WASM export: " ++ name
  | .executionTimeout ms => "Execution timeout exceeded (" ++ toString ms ++ "ms)"
  | .memoryLimitExceeded limit =>
    "Memory ceiling exceeded (limit: " ++ toString limit ++ " bytes)"
  | .executionTrap text => "WASM execution trap: " ++ text
  | .other text => "Sandbox error: " ++ text

end Dvrft.Sandbox

namespace Dvrft.Plugins

open Machine Sandbox

/-- The allocator that the guest is linked with. It traps, or answers the address of a
buffer inside the memory; the memory keeps below the ceiling that the store limits. -/
structure Allocator (σ : Type) (ceiling : ℕ) where
  withCapacity : Store σ → ℕ → Except WasmError UInt32 × Store σ
  grows : ∀ store capacity, store.memory.length ≤ (withCapacity store capacity).2.memory.length
  bounded : ∀ store capacity, store.memory.length ≤ ceiling →
    (withCapacity store capacity).2.memory.length ≤ ceiling
  inside : ∀ store capacity ptr, (withCapacity store capacity).1 = .ok ptr →
    ptr ≠ 0 ∧ ptr.toNat + capacity ≤ (withCapacity store capacity).2.memory.length

variable {σ : Type} {limits : PluginLimits}

/-- The export `allocate` of the plugin. -/
def allocateExport (alloc : Allocator σ limits.maxMemoryBytes) : Export σ Int32 Int32 where
  call store size :=
    let reply := alloc.withCapacity store size.toUInt32.toNat
    (reply.1.map UInt32.toInt32, reply.2)
  grows store size := alloc.grows store size.toUInt32.toNat

theorem length_descramble (memory : List UInt8) (ptr len : Int32) :
    (Descrambler.descramble memory ptr len).2.length = memory.length := by
  unfold Descrambler.descramble
  split_ifs
  · rfl
  · simp only [List.length_append, Descrambler.length_xorRepeating, List.length_take,
      List.length_drop]
    omega

/-- The epoch deadline of the store. It ends a call or lets it through; a call that it ends
leaves what it has done so far. -/
structure Deadline (σ : Type) where
  cut : Store σ → Int32 × Int32 → Option (Store σ)
  grows : ∀ store args left, cut store args = some left →
    store.memory.length ≤ left.memory.length

/-- The export `descramble`; a slice outside the memory traps. -/
def descrambleExport (deadline : Deadline σ) : Export σ (Int32 × Int32) Int32 where
  call store args :=
    match deadline.cut store args with
    | some left => (.error ⟨true, "wasm trap: interrupt"⟩, left)
    | none =>
      if ¬ (args.1 = 0 ∨ args.2 ≤ 0) ∧
          store.memory.length < args.1.toUInt32.toNat + args.2.toUInt32.toNat then
        (.error ⟨false, "out of bounds access"⟩, store)
      else
        let reply := Descrambler.descramble store.memory args.1 args.2
        (.ok reply.1, ⟨reply.2, store.rest⟩)
  grows store args := by
    dsimp only
    split
    next left hcut => exact deadline.grows store args left hcut
    next =>
      split_ifs
      · exact le_rfl
      · exact (length_descramble _ _ _).ge

/-- An instance whose memory is below the ceiling. -/
abbrev Fresh (σ : Type) (limits : PluginLimits) : Type :=
  { store : Store σ // store.memory.length ≤ limits.maxMemoryBytes }

/-- The plugin of the synthetic format. -/
def c4XorDescrambler (limits : PluginLimits) (fresh : Except WasmError (Fresh σ limits))
    (alloc : Allocator σ limits.maxMemoryBytes) (deadline : Deadline σ) : DescramblePlugin σ where
  guest :=
    { instantiate := fun _ => fresh.map Subtype.val
      allocate := some (allocateExport alloc)
      descramble := some (descrambleExport deadline)
      exportsMemory := true }
  limits := limits

/-- The guest as its `descramble` is called, with the payload in the buffer. -/
def handedOver (payload : Payload) (reserved : DescramblePlugin.Reservation σ) : Store σ :=
  ⟨reserved.store.memory.take (asUsize reserved.guestPtr) ++ payload.bytes ++
    reserved.store.memory.drop (asUsize reserved.guestPtr + payload.bytes.length),
    reserved.store.rest⟩

/-- The deadline passes while the guest works on the payload. -/
def Deadline.passes (deadline : Deadline σ) (payload : Payload)
    (reserved : DescramblePlugin.Reservation σ) : Bool :=
  (deadline.cut (handedOver payload reserved)
    (reserved.guestPtr, DescramblePlugin.lengthArg payload)).isSome

section Hosted

variable {fresh : Except WasmError (Fresh σ limits)}
  {alloc : Allocator σ limits.maxMemoryBytes} {deadline : Deadline σ} {payload : Payload}
  {reserved : DescramblePlugin.Reservation σ}

theorem toInt_toInt32 {ptr : UInt32} (h : ptr.toNat < 2 ^ 31) : ptr.toInt32.toInt = ptr.toNat := by
  have hbits : 2 * ptr.toBitVec.toNat < 2 ^ 32 := by
    rw [UInt32.toNat_toBitVec]
    omega
  exact BitVec.toInt_eq_toNat_of_lt hbits

theorem toNat_lengthArg (payload : Payload) :
    (DescramblePlugin.lengthArg payload).toUInt32.toNat = payload.bytes.length % 2 ^ 32 := by
  have hword : (DescramblePlugin.lengthArg payload).toUInt32 =
      UInt32.ofNat payload.bytes.length := rfl
  rw [hword, UInt32.toNat_ofNat']

/-- A buffer that the guest grants lies inside the memory. -/
theorem reserve_c4
    (h : (c4XorDescrambler limits fresh alloc deadline).reserve payload = .ok reserved) :
    reserved.descramble = descrambleExport deadline ∧ ∃ ptr : UInt32,
      reserved.guestPtr = ptr.toInt32 ∧ ptr ≠ 0 ∧
      ptr.toNat + payload.bytes.length % 2 ^ 32 ≤ reserved.store.memory.length ∧
      reserved.store.memory.length ≤ limits.maxMemoryBytes := by
  unfold DescramblePlugin.reserve at h
  simp only [bind_ok] at h
  obtain ⟨store, hstore, allocate, hallocate, descramble, hdescramble, _, -, guestPtr, hptr, h⟩ := h
  obtain rfl := Except.ok.inj hallocate
  obtain rfl := Except.ok.inj hdescramble
  obtain rfl := Except.ok.inj h
  have hbelow : store.memory.length ≤ limits.maxMemoryBytes := by
    cases hfresh : fresh with
    | error e =>
      rw [hfresh] at hstore
      cases hstore
    | ok first =>
      rw [hfresh] at hstore
      rw [← Except.ok.inj hstore]
      exact first.2
  refine ⟨rfl, ?_⟩
  have hcapacity := toNat_lengthArg payload
  unfold allocateExport at hptr ⊢
  dsimp only at hptr ⊢
  rw [hcapacity] at hptr ⊢
  cases hreply : (alloc.withCapacity store (payload.bytes.length % 2 ^ 32)).1 with
  | error e =>
    rw [hreply] at hptr
    cases hptr
  | ok ptr =>
    rw [hreply] at hptr
    obtain ⟨hne, hinside⟩ := alloc.inside store _ ptr hreply
    exact ⟨ptr, (Except.ok.inj hptr).symm, hne, hinside, alloc.bounded _ _ hbelow⟩

theorem toInt32_ne_zero {ptr : UInt32} (h : ptr ≠ 0) : ptr.toInt32 ≠ 0 := by
  intro heq
  apply h
  rw [← UInt32.toUInt32_toInt32 ptr, heq]
  rfl

/-- The guest at work on a payload that lies in its memory. -/
theorem call_descrambleExport (payload : Payload) {before : List UInt8} (after : List UInt8)
    (rest : σ) {ptr : UInt32} (hne : ptr ≠ 0) (hstart : ptr.toNat = before.length)
    (hsmall : payload.bytes.length < 2 ^ 31)
    (huncut : deadline.cut ⟨before ++ payload.bytes ++ after, rest⟩
      (ptr.toInt32, DescramblePlugin.lengthArg payload) = none) :
    (descrambleExport deadline).call ⟨before ++ payload.bytes ++ after, rest⟩
        (ptr.toInt32, DescramblePlugin.lengthArg payload) =
      if payload.bytes = [] then (.ok (-1), ⟨before ++ payload.bytes ++ after, rest⟩)
      else (.ok 0, ⟨before ++ Descrambler.xorRepeating Descrambler.key payload.bytes ++ after,
        rest⟩) := by
  have hlen : (DescramblePlugin.lengthArg payload).toInt = payload.bytes.length :=
    Int32.toInt_ofNat_of_lt hsmall
  have hsize : (DescramblePlugin.lengthArg payload).toUInt32.toNat = payload.bytes.length := by
    rw [toNat_lengthArg, Nat.mod_eq_of_lt (by omega)]
  unfold descrambleExport
  simp only [huncut, UInt32.toUInt32_toInt32, hsize]
  split_ifs with hbeyond hempty hempty
  · rw [hempty] at hbeyond hlen
    exact absurd (.inr (Int32.le_iff_toInt_le.mpr (by rw [hlen]; decide))) hbeyond.1
  · simp only [List.length_append] at hbeyond
    omega
  · have hguard : ptr.toInt32 = 0 ∨ DescramblePlugin.lengthArg payload ≤ 0 := by
      rw [hempty] at hlen
      exact .inr (Int32.le_iff_toInt_le.mpr (by rw [hlen]; decide))
    unfold Descrambler.descramble
    rw [if_pos hguard]
  · have hpositive : 0 < DescramblePlugin.lengthArg payload := by
      rw [Int32.lt_iff_toInt_lt, hlen]
      have hpos := List.length_pos_iff.mpr hempty
      exact Int.natCast_pos.mpr hpos
    rw [Descrambler.descramble_slice before payload.bytes after _ _ (toInt32_ne_zero hne)
      (by rw [UInt32.toUInt32_toInt32]; exact hstart) hpositive hsize]

/-- What the host reads out of the buffer afterwards. -/
theorem slice_descrambled (before after bytes : List UInt8) :
    (slice (before ++ Descrambler.xorRepeating Descrambler.key bytes ++ after) before.length
      (before.length + bytes.length) : Outcome SandboxError (List UInt8)) =
        .ok (Descrambler.xorRepeating Descrambler.key bytes) := by
  have hinside : before.length + bytes.length ≤
      (before ++ Descrambler.xorRepeating Descrambler.key bytes ++ after).length := by
    simp only [List.length_append, Descrambler.length_xorRepeating]
    omega
  rw [slice_of_le (Nat.le_add_right _ _) hinside, Nat.add_sub_cancel_left, List.append_assoc,
    List.drop_left, List.take_left' (Descrambler.length_xorRepeating _ _)]

/-- The rest of the protocol in a granted buffer. -/
theorem exchange_c4 (build : Build) (hceiling : limits.maxMemoryBytes < 2 ^ 31)
    (h : (c4XorDescrambler limits fresh alloc deadline).reserve payload = .ok reserved) :
    (c4XorDescrambler limits fresh alloc deadline).exchange build payload reserved =
      if 2 ^ 31 ≤ payload.bytes.length then
        fail (.memoryLimitExceeded limits.maxMemoryBytes)
      else if deadline.passes payload reserved then fail (.executionTimeout limits.timeoutMs)
      else if payload.bytes = [] then
        fail (.other "Descrambler plugin returned non-zero error code: -1")
      else .ok (Descrambler.xorRepeating Descrambler.key payload.bytes) := by
  obtain ⟨hexport, ptr, hptr, hne, hinside, hbounded⟩ := reserve_c4 h
  have hsmall : ptr.toNat < 2 ^ 31 := by omega
  have hoffset : asUsize reserved.guestPtr = ptr.toNat := by
    have hint := toInt_toInt32 hsmall
    rw [← hptr] at hint
    have hnonneg := @asUsize_of_nonneg reserved.guestPtr (by omega)
    omega
  have hlength := payload.length_lt
  have hadd : ∀ {ε : Type}, (build.add ptr.toNat payload.bytes.length : Outcome ε ℕ) =
      .ok (ptr.toNat + payload.bytes.length) := Build.add_of_lt build (by omega)
  unfold DescramblePlugin.exchange
  simp only [hoffset, hadd, ok_bind]
  by_cases hlarge : 2 ^ 31 ≤ payload.bytes.length
  · rw [if_pos (by omega), if_pos hlarge]
    rfl
  · rw [Nat.mod_eq_of_lt (by omega)] at hinside
    have hsplit : (writeSlice reserved.store.memory ptr.toNat (ptr.toNat + payload.bytes.length)
        payload.bytes : Outcome SandboxError (List UInt8)) =
          .ok (reserved.store.memory.take ptr.toNat ++ payload.bytes ++
            reserved.store.memory.drop (ptr.toNat + payload.bytes.length)) :=
      if_pos ⟨Nat.le_add_right _ _, hinside, (Nat.add_sub_cancel_left ..).symm⟩
    have hstart : ptr.toNat = (reserved.store.memory.take ptr.toNat).length := by
      rw [List.length_take]
      omega
    rw [if_neg (by omega), hsplit, ok_bind, hexport, hptr, if_neg hlarge]
    have hpasses : deadline.passes payload reserved = (deadline.cut
        ⟨reserved.store.memory.take ptr.toNat ++ payload.bytes ++
          reserved.store.memory.drop (ptr.toNat + payload.bytes.length), reserved.store.rest⟩
        (ptr.toInt32, DescramblePlugin.lengthArg payload)).isSome := by
      rw [Deadline.passes, handedOver, hoffset, hptr]
    cases hcut : deadline.cut
        ⟨reserved.store.memory.take ptr.toNat ++ payload.bytes ++
          reserved.store.memory.drop (ptr.toNat + payload.bytes.length), reserved.store.rest⟩
        (ptr.toInt32, DescramblePlugin.lengthArg payload) with
    | some left =>
      rw [hcut, Option.isSome_some] at hpasses
      rw [if_pos hpasses]
      simp only [descrambleExport, hcut]
      rfl
    | none =>
      rw [hcut, Option.isSome_none] at hpasses
      rw [if_neg (ne_true_of_eq_false hpasses), call_descrambleExport payload
        (reserved.store.memory.drop (ptr.toNat + payload.bytes.length)) reserved.store.rest hne
        hstart (by omega) hcut]
      split_ifs with hempty
      · rfl
      · have hresult := slice_descrambled (reserved.store.memory.take ptr.toNat)
          (reserved.store.memory.drop (ptr.toNat + payload.bytes.length)) payload.bytes
        rw [← hstart] at hresult
        have hanswer : (c4XorDescrambler limits fresh alloc deadline).answer (.ok (0 : Int32)) =
            .ok 0 := rfl
        rw [hanswer, ok_bind, if_neg (by decide), hresult]

/-- What the host delivers of a payload, given that the guest grants a buffer for it and is
through with it in time. -/
theorem descramble_granted (build : Build) (hceiling : limits.maxMemoryBytes < 2 ^ 31)
    (hnonempty : payload.bytes ≠ []) (hsmall : payload.bytes.length < 2 ^ 31)
    (h : (c4XorDescrambler limits fresh alloc deadline).reserve payload = .ok reserved)
    (hintime : deadline.passes payload reserved = false) :
    (c4XorDescrambler limits fresh alloc deadline).descramble build payload =
      .ok (Descrambler.xorRepeating Descrambler.key payload.bytes) := by
  rw [DescramblePlugin.descramble, h, ok_bind, exchange_c4 build hceiling h,
    if_neg (by omega), if_neg (ne_true_of_eq_false hintime), if_neg hnonempty]

end Hosted

/-- The reference plugin in the sandbox: a payload comes back under the key whenever the
guest grants a buffer for it and is through in time, the empty one and those beyond the
address space are refused, and a result put in again, in an instance and with a deadline of
its own, gives the payload back. -/
theorem descramble_c4 (build : Build) (hceiling : limits.maxMemoryBytes < 2 ^ 31)
    (fresh : Except WasmError (Fresh σ limits)) (alloc : Allocator σ limits.maxMemoryBytes)
    (deadline : Deadline σ) (payload : Payload) :
    let plugin := c4XorDescrambler limits fresh alloc deadline
    (plugin.descramble build payload = plugin.reserve payload >>= fun reserved =>
      if 2 ^ 31 ≤ payload.bytes.length then fail (.memoryLimitExceeded limits.maxMemoryBytes)
      else if deadline.passes payload reserved then fail (.executionTimeout limits.timeoutMs)
      else if payload.bytes = [] then
        fail (.other "Descrambler plugin returned non-zero error code: -1")
      else .ok (Descrambler.xorRepeating Descrambler.key payload.bytes)) ∧
    plugin.descramble build payload ≠ panicked ∧
    ∀ (fresh' : Except WasmError (Fresh σ limits)) (alloc' : Allocator σ limits.maxMemoryBytes)
      (deadline' : Deadline σ) (back : Payload) (reserved : DescramblePlugin.Reservation σ),
      plugin.descramble build payload = .ok back.bytes →
      (c4XorDescrambler limits fresh' alloc' deadline').reserve back = .ok reserved →
      deadline'.passes back reserved = false →
        (c4XorDescrambler limits fresh' alloc' deadline').descramble build back =
          .ok payload.bytes := by
  intro plugin
  have hwhole : plugin.descramble build payload = plugin.reserve payload >>= fun reserved =>
      if 2 ^ 31 ≤ payload.bytes.length then fail (.memoryLimitExceeded limits.maxMemoryBytes)
      else if deadline.passes payload reserved then fail (.executionTimeout limits.timeoutMs)
      else if payload.bytes = [] then
        fail (.other "Descrambler plugin returned non-zero error code: -1")
      else .ok (Descrambler.xorRepeating Descrambler.key payload.bytes) := by
    rw [DescramblePlugin.descramble]
    cases hreserve : plugin.reserve payload with
    | error e => rfl
    | ok reserved => rw [ok_bind, ok_bind, exchange_c4 build hceiling hreserve]
  refine ⟨hwhole, ?_, ?_⟩
  · rw [hwhole]
    refine bind_ne_panicked_iff.mpr ⟨reserve_ne_panicked plugin payload, fun _ _ => ?_⟩
    split_ifs
    · exact fail_ne_panicked _
    · exact fail_ne_panicked _
    · exact fail_ne_panicked _
    · exact ok_ne_panicked _
  · intro fresh' alloc' deadline' back reserved hback hreserved hintime
    rw [hwhole] at hback
    obtain ⟨_, -, hback⟩ := bind_ok.mp hback
    split_ifs at hback with hlarge hcut hempty
    · simp [fail] at hback
    · simp [fail] at hback
    · simp [fail] at hback
    · have hbytes := Except.ok.inj hback
      have hlength : back.bytes.length = payload.bytes.length := by
        rw [← hbytes, Descrambler.length_xorRepeating]
      have hnonempty : back.bytes ≠ [] := by
        intro hnil
        rw [hnil, List.length_nil] at hlength
        exact hempty (List.length_eq_zero_iff.mp hlength.symm)
      rw [descramble_granted build hceiling hnonempty (by omega) hreserved hintime, ← hbytes,
        Descrambler.xorRepeating_involutive]

/-- An allocator that hands out the same address, as long as the buffer fits behind it. -/
def fixedAllocator (ceiling : ℕ) : Allocator Unit ceiling where
  withCapacity store capacity :=
    if 8 + capacity ≤ ceiling then
      (.ok 8, ⟨store.memory ++ List.replicate (8 + capacity - store.memory.length) 0, ()⟩)
    else (.error ⟨false, "unreachable"⟩, store)
  grows store capacity := by
    split_ifs
    · simp
    · exact le_rfl
  bounded store capacity h := by
    split_ifs
    · simp only [List.length_append, List.length_replicate]
      omega
    · exact h
  inside store capacity ptr h := by
    split_ifs at h ⊢ with hfits
    · rw [← Except.ok.inj h]
      refine ⟨by decide, ?_⟩
      have height : (8 : UInt32).toNat = 8 := rfl
      simp only [List.length_append, List.length_replicate, height]
      omega

/-- A deadline that passes when more than so many bytes are to be descrambled. -/
def patience (σ : Type) (most : ℕ) : Deadline σ where
  cut store args := if most < args.2.toUInt32.toNat then some store else none
  grows store args left h := by
    split_ifs at h
    exact (congrArg (fun s : Store σ => s.memory.length) (Option.some.inj h)).le

/-- An instance under the default limits, with nothing in its memory. -/
def emptyInstance : Except WasmError (Fresh Unit {}) := .ok ⟨⟨[], ()⟩, Nat.zero_le _⟩

def threeBytes : Payload := ⟨[0xD4, 0x00, 0x7E], by decide⟩

theorem descramble_c4_three :
    (c4XorDescrambler {} emptyInstance (fixedAllocator _) (patience _ 3)).descramble .debug
        threeBytes = .ok [0x00, 0xA8, 0x00] ∧
      (c4XorDescrambler {} emptyInstance (fixedAllocator _) (patience _ 2)).descramble .debug
        threeBytes = fail (.executionTimeout 200) := by
  constructor
  · have hwhole := (descramble_c4 .debug (by decide) emptyInstance (fixedAllocator _)
      (patience _ 3) threeBytes).1
    rw [hwhole]
    rfl
  · have hwhole := (descramble_c4 .debug (by decide) emptyInstance (fixedAllocator _)
      (patience _ 2) threeBytes).1
    rw [hwhole]
    rfl

end Dvrft.Plugins
