import Mathlib.Data.List.Basic

/-!
The XOR descrambler plugin. A repeating key is applied to a slice of the linear
memory; applied twice it gives the slice back.
-/

namespace Dvrft.Descrambler

/-- Every byte is combined with the byte of the key that its position falls on. -/
def xorRepeating (key bytes : List UInt8) : List UInt8 :=
  bytes.mapIdx fun i byte => byte ^^^ key.getD (i % key.length) 0

@[simp] theorem length_xorRepeating (key bytes : List UInt8) :
    (xorRepeating key bytes).length = bytes.length := List.length_mapIdx

theorem xorRepeating_involutive (key bytes : List UInt8) :
    xorRepeating key (xorRepeating key bytes) = bytes := by
  refine List.ext_getElem (by simp) fun i hi hi' => ?_
  simp only [xorRepeating, List.getElem_mapIdx]
  rw [UInt8.xor_assoc, UInt8.xor_self, UInt8.xor_zero]

/-- The key of the synthetic format. -/
def key : List UInt8 := [0xD4, 0xA8, 0x7E, 0x31]

/-- The export `descramble`: the status and the memory afterwards. Addresses are
unsigned. -/
def descramble (memory : List UInt8) (ptr len : Int32) : Int32 × List UInt8 :=
  if ptr = 0 ∨ len ≤ 0 then (-1, memory)
  else
    let start := ptr.toUInt32.toNat
    let size := len.toUInt32.toNat
    (0, memory.take start ++ xorRepeating key ((memory.drop start).take size) ++
      memory.drop (start + size))

/-- A slice that is there is descrambled in its place, and nothing else changes. -/
theorem descramble_slice (before slice after : List UInt8) (ptr len : Int32) (hptr : ptr ≠ 0)
    (hstart : ptr.toUInt32.toNat = before.length) (hlen : 0 < len)
    (hsize : len.toUInt32.toNat = slice.length) :
    descramble (before ++ slice ++ after) ptr len =
      (0, before ++ xorRepeating key slice ++ after) := by
  have hguard : ¬ (ptr = 0 ∨ len ≤ 0) := by
    rintro (hzero | hle)
    · exact hptr hzero
    · exact absurd hlen (Int32.not_lt.mpr hle)
  have hafter : (before ++ slice ++ after).drop (before.length + slice.length) = after := by
    rw [← List.length_append, List.drop_left]
  have hslice : ((before ++ slice ++ after).drop before.length).take slice.length = slice := by
    rw [List.append_assoc, List.drop_left, List.take_left]
  have hbefore : (before ++ slice ++ after).take before.length = before := by
    rw [List.append_assoc, List.take_left]
  simp only [descramble, if_neg hguard, hstart, hsize, hbefore, hslice, hafter]

end Dvrft.Descrambler
