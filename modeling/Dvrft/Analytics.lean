import Dvrft.Acquisition
import Dvrft.Binary32
import Dvrft.Correlation

/-!
The analysis of one frame: how much its bytes vary, which entities its digest
proposes, and how relevant the frame is. The scores are never below their floors,
whatever the arithmetic delivers.
-/

namespace Dvrft.Analytics

open Machine Platform Gregorian Acquisition Binary32 Correlation

structure BoundingBox where
  xMin : Float32
  yMin : Float32
  xMax : Float32
  yMax : Float32
  deriving DecidableEq

/-- `x.clamp(0.0, 1.0)`. -/
def clampUnit (x : Float32) : Float32 := if x < 0.0 then 0.0 else if 1.0 < x then 1.0 else x

def BoundingBox.new (xMin yMin xMax yMax : Float32) : BoundingBox :=
  ⟨clampUnit xMin, clampUnit yMin, clampUnit xMax, clampUnit yMax⟩

inductive ObjectClass where
  | person
  | vehicle
  | face
  | licensePlate
  | unattendedObject
  | motionCluster
  deriving DecidableEq, Repr

def ObjectClass.code : ObjectClass → String
  | person => "person"
  | vehicle => "vehicle"
  | face => "face"
  | licensePlate => "license_plate"
  | unattendedObject => "unattended_object"
  | motionCluster => "motion_cluster"

/-- The attributes are a map, here with its keys in the order of their insertion. -/
structure DetectedEntity where
  classLabel : ObjectClass
  confidence : Float
  bbox : BoundingBox
  attributes : List (String × String)

structure FrameAnalytics where
  blockIndex : ℕ
  channelId : UInt32
  timestamp : UInt64
  normalizedTimestamp : String
  motionEnergy : Float
  relevanceScore : Float
  entities : List DetectedEntity

/-- The sum of the steps between neighbouring bytes. -/
def totalGradient : Bytes → ℕ
  | a :: b :: rest => ((a.toNat : ℤ) - b.toNat).natAbs + totalGradient (b :: rest)
  | _ => 0

def computeMotionEnergy {ε : Type} (X : Crates) (payload : Bytes) : Outcome ε Float :=
  if payload.length < 4 then .ok 0.0
  else do
    let total ← X.build.fit (totalGradient payload)
    let count := payload.length - 1
    let avgGradient := (UInt64.ofNat total).toFloat / (UInt64.ofNat count).toFloat
    .ok (clamp (avgGradient / 128.0) 0.0 1.0)

/-- `format!("{:.2}", x)`: to the nearest hundredth, a tie to the even one. -/
def twoDecimals (x : Float32) : String :=
  let bits := x.toBits.toNat
  let sign := if 2 ^ 31 ≤ bits then "-" else ""
  let exponent := bits / 2 ^ 23 % 2 ^ 8
  let fraction := bits % 2 ^ 23
  if exponent = 255 then if fraction = 0 then sign ++ "inf" else "NaN"
  else
    -- the magnitude is `digits / 2 ^ 149`
    let digits := if exponent = 0 then fraction else (fraction + 2 ^ 23) * 2 ^ (exponent - 1)
    let whole := 100 * digits / 2 ^ 149
    let rest := 100 * digits % 2 ^ 149
    let roundsUp := 2 ^ 149 < 2 * rest ∨ (2 * rest = 2 ^ 149 ∧ whole % 2 = 1)
    let hundredths := if roundsUp then whole + 1 else whole
    sign ++ toString (hundredths / 100) ++ "." ++ String.ofList (twoDigits (hundredths % 100))

/-- The class and the base confidence of an aspect ratio. -/
def classifyAspect (aspectRatio : Float32) : ObjectClass × Float :=
  if 1.4 < aspectRatio then (.person, 0.88)
  else if aspectRatio < 0.9 then (.vehicle, 0.85)
  else (.face, 0.80)

/-- The entities that a digest proposes for a frame. -/
def proposeEntities (hBytes : Bytes) (channelId : UInt32) (isKeyframe : Bool)
    (motionEnergy : Float) : List DetectedEntity :=
  let byte (i : ℕ) : Float32 := (hBytes.getD i 0).toFloat32 / 255.0
  let seedX := byte 0
  let seedY := byte 1
  let w := 0.15 + byte 2 * 0.25
  let h := 0.25 + byte 3 * 0.40
  let xMin := minimum seedX (1.0 - w)
  let yMin := minimum seedY (1.0 - h)
  let xMax := minimum (xMin + w) 1.0
  let yMax := minimum (yMin + h) 1.0
  let aspectRatio := (yMax - yMin) / (xMax - xMin + 0.001)
  let classified := classifyAspect aspectRatio
  let attrs := [("aspect_ratio", twoDecimals aspectRatio), ("channel", toString channelId.toNat)] ++
    if isKeyframe then [("anchor", "I-frame")] else []
  let first : DetectedEntity :=
    { classLabel := classified.1
      confidence := clamp (classified.2 + motionEnergy * 0.10) 0.60 0.98
      bbox := .new xMin yMin xMax yMax
      attributes := attrs }
  if isKeyframe ∧ 0.40 < motionEnergy then
    let x2Min := maximum (1.0 - xMax) 0.0
    let y2Min := minimum (yMin + 0.1) 0.6
    let x2Max := minimum (x2Min + 0.20) 1.0
    let y2Max := minimum (y2Min + 0.25) 1.0
    [first,
      { classLabel := .motionCluster
        confidence := 0.78
        bbox := .new x2Min y2Min x2Max y2Max
        attributes := [("secondary_detection", "true")] }]
  else [first]

/-- `f64::max`. -/
def larger (a b : Float) : Float :=
  if a.isNaN then b else if b.isNaN then a else if a < b then b else a

def analyzeFrame {ε : Type} (X : Crates) (blockIndex : ℕ) (channelId : UInt32)
    (timestamp : UInt64) (normalizedTimestamp : String) (payload : Bytes) (isKeyframe : Bool) :
    Outcome ε FrameAnalytics := do
  let motionEnergy ← computeMotionEnergy X payload
  let entities :=
    if 32 ≤ payload.length ∧ (isKeyframe ∨ 0.35 < motionEnergy) then
      proposeEntities (X.blake3 payload) channelId isKeyframe motionEnergy
    else []
  let entityConfMax := (entities.map DetectedEntity.confidence).foldl larger 0.0
  let keyframeBoost := if isKeyframe then 0.20 else 0.0
  .ok
    { blockIndex := blockIndex
      channelId := channelId
      timestamp := timestamp
      normalizedTimestamp := normalizedTimestamp
      motionEnergy := motionEnergy
      relevanceScore :=
        clamp (motionEnergy * 0.40 + entityConfMax * 0.40 + keyframeBoost) 0.0 1.0
      entities := entities }

theorem not_clamp_lt (x : Float) {low high : Float} (hself : ¬ low < low) (hhigh : ¬ high < low) :
    ¬ clamp x low high < low := by
  unfold clamp
  split_ifs with hlow habove
  · exact hself
  · exact hhigh
  · exact hlow

/-- No entity is proposed with less than the lowest confidence. -/
theorem proposeEntities_confidence {hBytes : Bytes} {channelId : UInt32} {isKeyframe : Bool}
    {motionEnergy : Float} {entity : DetectedEntity}
    (h : entity ∈ proposeEntities hBytes channelId isKeyframe motionEnergy) :
    ¬ entity.confidence < 0.60 := by
  unfold proposeEntities at h
  extract_lets at h
  have hfirst : ∀ x : Float, ¬ clamp x 0.60 0.98 < 0.60 :=
    fun x => not_clamp_lt x (by decide +kernel) (by decide +kernel)
  have hsecond : ¬ (0.78 : Float) < 0.60 := by decide +kernel
  split_ifs at h
  · rcases List.mem_cons.mp h with rfl | h
    · exact hfirst _
    · obtain rfl := List.mem_singleton.mp h
      exact hsecond
  · obtain rfl := List.mem_singleton.mp h
    exact hfirst _

/-- An analysed frame has no negative relevance, and its entities are at least
as confident as the lowest proposal. -/
theorem analyzeFrame_floors {ε : Type} {X : Crates} {blockIndex : ℕ} {channelId : UInt32}
    {timestamp : UInt64} {normalizedTimestamp : String} {payload : Bytes} {isKeyframe : Bool}
    {analysis : FrameAnalytics}
    (h : (analyzeFrame X blockIndex channelId timestamp normalizedTimestamp payload isKeyframe :
      Outcome ε FrameAnalytics) = .ok analysis) :
    ¬ analysis.relevanceScore < 0.0 ∧
      ∀ entity ∈ analysis.entities, ¬ entity.confidence < 0.60 := by
  obtain ⟨motionEnergy, -, h⟩ := bind_ok.mp h
  obtain rfl := Except.ok.inj h
  refine ⟨not_clamp_lt _ (by decide +kernel) (by decide +kernel), ?_⟩
  intro entity hentity
  dsimp only at hentity
  split_ifs at hentity
  · exact proposeEntities_confidence hentity
  · exact absurd hentity List.not_mem_nil

example : twoDecimals 1.375 = "1.38" ∧ twoDecimals 1.625 = "1.62" := by decide +kernel

end Dvrft.Analytics
