import Dvrft.Carving
import Dvrft.CodePositions

/-!
Carving as a splitter: the frames of a buffer are its units, one frame a unit, in
the order of the buffer.
-/

namespace Dvrft.Splitting

open Chunks Errors Machine Platform Acquisition Database StartCodes Carving

/-- A frame tells where a unit stands, what its bytes hash to and what the byte behind
its code stands for. -/
structure Describes (X : Crates) (data : Bytes) (baseOffset : ℕ) (u : CodedUnit)
    (frame : CarvedFrame) : Prop where
  byteOffset : frame.byteOffset = baseOffset + u.start
  length : frame.length = u.stop - u.start
  blake3Hash : frame.blake3Hash = X.blake3Hex ((data.drop u.start).take (u.stop - u.start))
  header : ∃ b, data[u.start + u.codeLength]? = some b ∧
    frame.nalType = (classifyNalHeader b).description ∧
    frame.isKeyframe = (classifyNalHeader b).isKeyframe

theorem describes_frameOf (X : Crates) {data : Bytes} (baseOffset : ℕ) {u : CodedUnit}
    (hlt : u.start + u.codeLength < u.stop) (hstop : u.stop ≤ data.length) :
    Describes X data baseOffset u
      { frameOf X data u with byteOffset := baseOffset + u.start } where
  byteOffset := rfl
  length := by
    dsimp only [frameOf]
    rw [List.length_take, List.length_drop]
    omega
  blake3Hash := rfl
  header := by
    refine ⟨data[u.start + u.codeLength], List.getElem?_eq_getElem (by omega), ?_⟩
    dsimp only [frameOf]
    rw [List.getD_eq_getElem?_getD, List.getElem?_eq_getElem (by omega), Option.getD_some]
    exact ⟨rfl, rfl⟩

/-- A buffer whose units have their places below the limit is carved into the frames of
its units. -/
theorem carveBuffer_ok (X : Crates) {data : Bytes} {baseOffset : ℕ} (hlen : 5 ≤ data.length)
    (hfit : ∀ u, Delimited data u → baseOffset + u.start < 2 ^ 64) :
    carveBuffer X data baseOffset = .ok ((units 0 data).map fun u =>
      { frameOf X data u with byteOffset := baseOffset + u.start }) := by
  have hcodes : ∀ x ∈ startCodes 0 data, x.1 ≤ data.length := by
    intro x hx
    have hbounds := mem_startCodes hx
    omega
  have hunits : unitsBetween data.length (startCodes 0 data) = units 0 data := by
    rw [units, Nat.zero_add]
  have hplaces : ∀ u ∈ unitsBetween data.length (startCodes 0 data),
      baseOffset + u.start < 2 ^ 64 := by
    intro u hu
    rw [hunits] at hu
    exact hfit u (mem_units_iff.mp hu)
  obtain ⟨frames, hframes, rfl⟩ := framesAt_eq X hplaces hcodes
  unfold carveBuffer
  rw [if_neg (by omega), hframes, hunits]

/-- The frames are the units of the buffer, one a unit: in their order, apart from one
another, each described by its own bytes. Behind the first code only codes of empty
units are left out. -/
structure Splits (X : Crates) (data : Bytes) (baseOffset : ℕ) (us : List CodedUnit)
    (frames : List CarvedFrame) : Prop where
  described : List.Forall₂ (Describes X data baseOffset) us frames
  ordered : us.Pairwise fun u v => u.stop ≤ v.start
  apart : frames.Pairwise fun f g => f.byteOffset + f.length ≤ g.byteOffset
  delimited : ∀ u, u ∈ us ↔ Delimited data u
  covered : ∀ j < data.length, (∃ p n, CodeAt data p n ∧ p ≤ j) →
    (∃ u ∈ us, u.start ≤ j ∧ j < u.stop) ∨
      ∃ p n, CodeAt data p n ∧ p ≤ j ∧ j < p + n ∧
        (p + n = data.length ∨ ∃ m, CodeAt data (p + n) m)

theorem carveBuffer_splits (X : Crates) {data : Bytes} {baseOffset : ℕ} (hlen : 5 ≤ data.length)
    (hfit : ∀ u, Delimited data u → baseOffset + u.start < 2 ^ 64) :
    ∃ us frames, carveBuffer X data baseOffset = .ok frames ∧
      Splits X data baseOffset us frames := by
  have hbounds : ∀ u ∈ units 0 data, u.start + u.codeLength < u.stop ∧ u.stop ≤ data.length := by
    intro u hu
    have hunit := mem_units hu
    omega
  have hordered : (units 0 data).Pairwise fun u v => u.stop ≤ v.start :=
    unitsBetween_pairwise (startCodes_pairwise 0 data)
  refine ⟨units 0 data, _, carveBuffer_ok X hlen hfit, ?_, hordered, ?_,
    fun u => mem_units_iff, ?_⟩
  · rw [List.forall₂_map_right_iff, List.forall₂_same]
    intro u hu
    exact describes_frameOf X baseOffset (hbounds u hu).1 (hbounds u hu).2
  · rw [List.pairwise_map]
    apply hordered.imp_of_mem
    intro u v hu hv hle
    have hdescribed := describes_frameOf X baseOffset (hbounds u hu).1 (hbounds u hu).2
    rw [hdescribed.length, hdescribed.byteOffset]
    have hlt := (hbounds u hu).1
    dsimp only
    omega
  · intro j hj hcode
    rcases mem_unit_or_emptyCode hj hcode with ⟨u, hunit, hinside⟩ | hempty
    · exact .inl ⟨u, mem_units_iff.mpr hunit, hinside⟩
    · exact .inr hempty

/-- A parameter set, an empty unit, and a code in the last three bytes. -/
def emptyUnitStream : Bytes := [9, 0, 0, 0, 1, 0, 0, 1, 0x67, 5, 0, 0, 1]

example : (carveBuffer .sample emptyUnitStream 1000).map
    (List.map fun f => (f.byteOffset, f.length)) = .ok [(1005, 8)] := rfl

theorem carveBuffer_splits_emptyUnit :
    ∃ us frames, carveBuffer .sample emptyUnitStream 1000 = .ok frames ∧
      Splits .sample emptyUnitStream 1000 us frames := by
  apply carveBuffer_splits .sample (by decide)
  intro u hunit
  have hfour := hunit.code.four_le
  have hlength : emptyUnitStream.length = 13 := rfl
  omega

end Dvrft.Splitting
