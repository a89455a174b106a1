import Dvrft.Acquisition
import Dvrft.Binary32
import Dvrft.Texts

/-!
The container scan: what the head of an evidence file looks like when no grammar
is asked. The steps are tried in a fixed order, and the first that knows the head
answers. A vendor is told by words that occur in the head, read as text.
-/

namespace Dvrft.Containers

open Acquisition Texts

structure DeviceIdentification where
  recognized : Bool
  vendor : String
  model : Option String
  chipset : Option String
  confidence : Float32
  matchedGrammarId : Option String
  validationTier : Option ℕ
  matchedSignature : Option String
  details : List String
  deriving DecidableEq

def DeviceIdentification.unrecognized : DeviceIdentification where
  recognized := false
  vendor := "Unknown"
  model := none
  chipset := none
  confidence := 0.0
  matchedGrammarId := none
  validationTier := none
  matchedSignature := none
  details := ["Vendor unknown / format unrecognized (below confidence threshold)"]

/-- `data.windows(size).position(p)`. -/
def windowPosition (size : ℕ) (p : Bytes → Bool) (data : Bytes) : Option ℕ :=
  (List.range (data.length + 1 - size)).find? fun i => p ((data.drop i).take size)

/-- `data[start..stop]`, inside the data. -/
def between (data : Bytes) (start stop : ℕ) : Bytes := (data.drop start).take (stop - start)

/-- The answer whose words come first in the table and occur in the bytes, letter
case aside. -/
def oemOf {α : Type} (table : List (List String × α)) (data : Bytes) : Option α :=
  let text := fromUtf8Lossy (data.map toAsciiLowercase)
  (table.find? fun entry => entry.1.any (textContains text)).map Prod.snd

def imageOems : List (List String × (String × String)) :=
  [(["hikvision", "hik_", "ds-7", "ds-8"], ("Hikvision", "Hikvision CCTV Snapshot / Export")),
    (["cp plus", "cpplus", "cp-uvr", "cp-e"], ("CP PLUS", "CP PLUS CCTV Snapshot / Export")),
    (["dahua", "dhav", "dh-"], ("Dahua Technology", "Dahua CCTV Snapshot / Export")),
    (["uniview", "unv"], ("Uniview (UNV)", "Uniview CCTV Snapshot / Export")),
    (["tiandy"], ("Tiandy Technologies", "Tiandy CCTV Snapshot / Export")),
    (["hanwha", "samsung techwin", "wiserec"],
      ("Hanwha Techwin (Samsung)", "Hanwha CCTV Snapshot / Export")),
    (["axis"], ("Axis Communications", "Axis Network Camera Snapshot")),
    (["bosch"], ("Bosch Security Systems", "Bosch CCTV Snapshot")),
    (["xiongmai", "xm_"], ("Xiongmai (XM)", "Xiongmai CCTV Snapshot"))]

def detectImageMetadataOem (data : Bytes) : Option (String × String) := oemOf imageOems data

structure ContainerOem where
  vendor : String
  model : String
  chipset : String
  grammar : String

def containerOems : List (List String × ContainerOem) :=
  [(["hikvision", "hik_", "hik4", "ds-7", "ds-8", "ivms"],
      ⟨"Hikvision", "Hikvision Surveillance MP4 Export", "HiSilicon / Embedded CCTV SoC",
        "hikvision-mp4"⟩),
    (["cp plus", "cpplus", "cp-uvr", "cp-e", "gcmob", "kvms"],
      ⟨"CP PLUS", "CP PLUS Surveillance MP4 Export", "HiSilicon / Custom Embedded SoC",
        "cctv-mp4"⟩),
    (["dahua", "dhav", "dh-", "smartpss"],
      ⟨"Dahua", "Dahua Surveillance MP4 Export", "HiSilicon Hi35xx / Ambarella S2L",
        "dahua-mp4"⟩),
    (["uniview", "unv"],
      ⟨"Uniview (UNV)", "Uniview Surveillance MP4 Export", "Grain Media / HiSilicon SoC",
        "cctv-mp4"⟩),
    (["tiandy"],
      ⟨"Tiandy", "Tiandy Surveillance MP4 Export", "Embedded Surveillance SoC", "cctv-mp4"⟩),
    (["hanwha", "samsung", "wiserec"],
      ⟨"Hanwha Techwin (Samsung)", "Hanwha Surveillance MP4 Export", "Wisenet SoC",
        "cctv-mp4"⟩),
    (["xiongmai", "xm_", "dvr_"],
      ⟨"Xiongmai (XM)", "Xiongmai Surveillance MP4 Export", "HiSilicon / Xiongmai SoC",
        "cctv-mp4"⟩),
    (["axis"],
      ⟨"Axis Communications", "Axis Surveillance MP4 Export", "ARTPEC SoC", "cctv-mp4"⟩),
    (["bosch"],
      ⟨"Bosch Security", "Bosch Surveillance MP4 Export", "Bosch Embedded Media Engine",
        "cctv-mp4"⟩)]

def detectContainerOem (probe : Bytes) : Option ContainerOem := oemOf containerOems probe

/-- `brand_str.eq_ignore_ascii_case(name)`, or the brand somewhere in the head. -/
def branded (probe : Bytes) (brand name : String) (marks : List String) : Bool :=
  decide (brand.toList.map Char.toLower = name.toList) ||
    (windowPosition 4 (fun w => marks.any fun mark => w == ascii mark) probe).isSome

/-- Step 1: MP4, ISO base media, QuickTime. -/
def isoBaseMedia (probe : Bytes) : Option DeviceIdentification :=
  if between probe 4 8 = ascii "ftyp" then
    let brand := trim (fromUtf8Lossy (between probe 8 12))
    if branded probe brand "hikv" ["hikv", "hik4", "HIKV", "HIK4"] then
      some
        { recognized := true
          vendor := "Hikvision"
          model := some "Hikvision Surveillance MP4 Export"
          chipset := some "HiSilicon / Embedded CCTV SoC"
          confidence := 0.95
          matchedGrammarId := some "hikvision-mp4"
          validationTier := some 2
          matchedSignature := some s!"ftyp ({brand})"
          details :=
            [s!"Detected Hikvision-branded MP4 container (Brand: {brand})",
              "Payload: H.264/H.265 surveillance video with Hikvision box metadata"] }
    else if branded probe brand "dhav" ["dhav", "DHAV"] then
      some
        { recognized := true
          vendor := "Dahua"
          model := some "Dahua Surveillance MP4 Export"
          chipset := some "HiSilicon Hi35xx / Ambarella S2L"
          confidence := 0.95
          matchedGrammarId := some "dahua-mp4"
          validationTier := some 2
          matchedSignature := some s!"ftyp ({brand})"
          details :=
            [s!"Detected Dahua MP4 container (Brand: {brand})",
              "Payload: DHAV/H.264 surveillance stream"] }
    else match detectContainerOem probe with
      | some oem =>
        let vendor := oem.vendor
        some
          { recognized := true
            vendor := vendor
            model := some oem.model
            chipset := some oem.chipset
            confidence := 0.96
            matchedGrammarId := some oem.grammar
            validationTier := some 2
            matchedSignature := some s!"ftyp ({brand}) + OEM ({vendor})"
            details :=
              [s!"Detected {vendor} surveillance video container (Brand: {brand})",
                s!"Identified proprietary {vendor} metadata markers embedded inside " ++
                  "container boxes.",
                "Payload: H.264/H.265 surveillance video stream ready for playback and " ++
                  "frame carving."] }
      | none =>
        some
          { recognized := true
            vendor := "CCTV Video Container (MP4 / MOV)"
            model := some s!"ISO Base Media Container (Brand: {brand})"
            chipset := some "Universal Surveillance H.264/H.265 Encoders"
            confidence := 0.92
            matchedGrammarId := some "cctv-mp4"
            validationTier := some 3
            matchedSignature := some s!"ftyp ({brand})"
            details :=
              [s!"Identified valid ISO Base Media / QuickTime container (Brand: {brand})",
                "Note: The CCTV DVR exported this recording in standard ISO MP4 format " ++
                  "without vendor-specific metadata tags.",
                "Proprietary file systems (HBFS for Hikvision, DHFS for CP PLUS/Dahua) " ++
                  "exist on the raw hard disk, not inside exported MP4 video files.",
                "Compatible with universal CCTV demuxers and forensic NAL bitstream analyzers.",
                "To extract frames, verify timestamps, or play the video, proceed to " ++
                  "Screen 4 (Carving) or Screen 5 (Playback)."] }
  else none

/-- Step 2: Dahua streams. -/
def dahuaStream (probe : Bytes) : Option DeviceIdentification :=
  match windowPosition 4 (fun w => w == ascii "DHAV" || w == ascii "DAHV") (probe.take 4096) with
  | some pos =>
    let sig := fromUtf8Lossy (between probe pos (pos + 4))
    let place := upperHex pos
    some
      { recognized := true
        vendor := "Dahua"
        model := some "DH-DVR / DH-NVR Series (DHFS / DHAV)"
        chipset := some "HiSilicon Hi35xx / Ambarella S2L"
        confidence := 0.90
        matchedGrammarId := some "dahua-v1"
        validationTier := some 3
        matchedSignature := some (if pos = 0 then sig else s!"{sig} (offset 0x{place})")
        details :=
          [s!"Identified Dahua DHAV proprietary frame container signature at byte {pos}",
            "Compatible with Dahua DHAV demuxer (Tier 2)"] }
  | none => none

/-- Step 3: AVI. -/
def riffAvi (probe : Bytes) : Option DeviceIdentification :=
  if between probe 0 4 = ascii "RIFF" ∧
      (between probe 8 12 = ascii "AVI " ∨ between probe 8 12 = ascii "AVIX") then
    some
      { recognized := true
        vendor := "CCTV Video Container (AVI / RIFF)"
        model := some "Audio Video Interleaved Surveillance Export (.avi)"
        chipset := some "OEM Surveillance Codecs (H.264 / MJPEG / MPEG-4)"
        confidence := 0.92
        matchedGrammarId := some "cctv-avi"
        validationTier := some 3
        matchedSignature := some "RIFF...AVI "
        details :=
          ["Identified Microsoft RIFF AVI container header",
            "Commonly utilized for CCTV exports (Honeywell, CP Plus, generic DVRs)"] }
  else none

/-- Step 4: Matroska and WebM. -/
def matroska (probe : Bytes) : Option DeviceIdentification :=
  if between probe 0 4 = [0x1A, 0x45, 0xDF, 0xA3] then
    some
      { recognized := true
        vendor := "CCTV Video Container (Matroska / MKV)"
        model := some "EBML Matroska Video Container (.mkv)"
        chipset := some "Surveillance Multi-Track Video Stream"
        confidence := 0.92
        matchedGrammarId := some "cctv-mkv"
        validationTier := some 3
        matchedSignature := some "1A 45 DF A3 (EBML)"
        details :=
          ["Identified Matroska / EBML container header signature",
            "Multi-channel surveillance video container"] }
  else none

def h265Stream (pos hevcType : ℕ) : DeviceIdentification :=
  let place := upperHex pos
  { recognized := true
    vendor := "Surveillance Video Stream (Raw H.265 / HEVC)"
    model := some "H.265 / HEVC Elementary Byte Stream"
    chipset := some "H.265 / HEVC Surveillance Encoder"
    confidence := 0.92
    matchedGrammarId := some "h265-stream"
    validationTier := some 3
    matchedSignature := some s!"00 00 00 01 (HEVC Type {hevcType})"
    details :=
      [s!"Identified raw H.265 / HEVC Annex B NAL unit header (Type: {hevcType}) " ++
          s!"at offset 0x{place}",
        "Direct elementary bitstream suitable for H.265 carving and frame parsing"] }

def h264TypeName : ℕ → String
  | 7 => "SPS (Sequence Parameter Set)"
  | 8 => "PPS (Picture Parameter Set)"
  | 5 => "IDR (Keyframe)"
  | 6 => "SEI (Supplemental Enhancement)"
  | 9 => "AUD (Access Unit Delimiter)"
  | 1 => "Non-IDR Video Slice"
  | _ => "NAL Unit"

def h264Stream (pos : ℕ) (header : UInt8) (nalType : ℕ) : DeviceIdentification :=
  let place := upperHex pos
  let byte := upperHex2 header
  let typeName := h264TypeName nalType
  { recognized := true
    vendor := "Surveillance Video Stream (Raw H.264 / AVC)"
    model := some "Raw H.264 Elementary Byte Stream (Annex B)"
    chipset := some "H.264 / AVC Surveillance Encoder"
    confidence := 0.92
    matchedGrammarId := some "h264-stream"
    validationTier := some 3
    matchedSignature := some s!"00 00 00 01 0x{byte} ({typeName})"
    details :=
      [s!"Identified raw H.264 Annex B stream starting with {typeName} at offset 0x{place}",
        "Direct elementary bitstream suitable for Screen 3 carving and Screen 4 analytics"] }

/-- The first long start code of the first 4096 bytes, or else the first short one. -/
def firstStartCode (probe : Bytes) : Option (ℕ × ℕ) :=
  ((windowPosition 4 (fun w => w == [0, 0, 0, 1]) (probe.take 4096)).map fun p => (p, 4)).or
    ((windowPosition 3 (fun w => w == [0, 0, 1]) (probe.take 4096)).map fun p => (p, 3))

/-- Step 5: raw H.264 or H.265. -/
def elementaryStream (probe : Bytes) : Option DeviceIdentification :=
  match firstStartCode probe with
  | none => none
  | some (pos, codeLen) =>
    match probe[pos + codeLen]? with
    | none => none
    | some nb =>
      if nb &&& 0x80 = 0 then
        let nalType := (nb &&& 0x1F).toNat
        let hevcType := ((nb >>> 1) &&& 0x3F).toNat
        if (hevcType = 32 ∨ hevcType = 33 ∨ hevcType = 34) ∧ pos + codeLen + 1 < probe.length then
          some (h265Stream pos hevcType)
        else if nalType ∈ [1, 5, 6, 7, 8, 9] then some (h264Stream pos nb nalType)
        else none
      else none

/-- Step 6: MPEG transport streams. -/
def transportStream (probe : Bytes) : Option DeviceIdentification :=
  if 188 * 3 ≤ probe.length ∧ probe[0]? = some 0x47 ∧ probe[188]? = some 0x47 ∧
      probe[376]? = some 0x47 then
    some
      { recognized := true
        vendor := "Surveillance Transport Stream (MPEG-TS)"
        model := some "MPEG-2 Transport Stream (188-byte packets)"
        chipset := some "NVR RTSP / Export Transport Stream"
        confidence := 0.88
        matchedGrammarId := some "mpegts-stream"
        validationTier := some 3
        matchedSignature := some "0x47 (Sync Byte @ 188-byte stride)"
        details :=
          ["Identified MPEG-2 Transport Stream with verified 188-byte sync byte cadence",
            "Compatible with TS demuxers and multi-channel extraction"] }
  else none

/-- Step 7: standard filesystems. -/
def standardFilesystem (probe : Bytes) : Option DeviceIdentification :=
  if probe.length < 1082 then none
  else if between probe 3 7 = ascii "NTFS" then
    some
      { recognized := true
        vendor := "Standard Filesystem Volume (NTFS)"
        model := some "Windows NT File System (Non-Proprietary DVR / External Drive)"
        chipset := some "PC / Standard Embedded Storage"
        confidence := 0.85
        matchedGrammarId := some "standard-ntfs"
        validationTier := some 3
        matchedSignature := some "NTFS"
        details := ["Identified NTFS volume boot record"] }
  else if between probe 82 87 = ascii "FAT32" then
    some
      { recognized := true
        vendor := "Standard Filesystem Volume (FAT32)"
        model := some "FAT32 Storage Volume (Standard SD Card / USB Backup)"
        chipset := some "Generic Storage Controller"
        confidence := 0.85
        matchedGrammarId := some "standard-fat32"
        validationTier := some 3
        matchedSignature := some "FAT32"
        details := ["Identified FAT32 volume boot record"] }
  else if probe[1080]? = some 0x53 ∧ probe[1081]? = some 0xEF then
    some
      { recognized := true
        vendor := "Standard Filesystem Volume (Linux ext4)"
        model := some "Linux ext2/3/4 Standard Superblock"
        chipset := some "Embedded Linux Standard Partition"
        confidence := 0.85
        matchedGrammarId := some "standard-ext4"
        validationTier := some 3
        matchedSignature := some "0x53 0xEF (ext4 magic)"
        details := ["Identified Linux ext filesystem superblock signature"] }
  else none

/-- A still image; a vendor that its metadata names is part of the answer. -/
def snapshot (probe : Bytes) (anonymous anonymousModel source anonymousNote grammarId signature
    opening : String) (closing : List String) : DeviceIdentification :=
  let oem := detectImageMetadataOem probe
  { recognized := true
    vendor := match oem with
      | some (vendor, _) => s!"CCTV Snapshot / Export ({vendor})"
      | none => anonymous
    model := match oem with
      | some (_, model) => some model
      | none => some anonymousModel
    chipset := some "Single-Frame Graphic Asset"
    confidence := 0.99
    matchedGrammarId := some grammarId
    validationTier := some 3
    matchedSignature := some signature
    details :=
      opening :: (match oem with
        | some (vendor, _) => s!"OEM Identified from embedded {source}: {vendor}"
        | none => anonymousNote) :: closing }

def pngSnapshot (probe : Bytes) : DeviceIdentification :=
  snapshot probe "Still Graphic Image / CCTV Snapshot (PNG)"
    "Generic PNG Image (No OEM Tags in Metadata)" "metadata"
    "No OEM brand metadata (Hikvision, CP PLUS, Dahua, etc.) embedded in PNG chunks." "image-png"
    "89 50 4E 47 0D 0A 1A 0A (.PNG)" "Identified PNG still image file (CCTV snapshot / picture)."
    ["A PNG file is an open W3C bitmap image format (pixel colors), NOT a DVR hard drive " ++
       "filesystem.",
      "Proprietary filesystems (e.g. DHFS for CP PLUS/Dahua, HIKVISION for Hikvision) " ++
        "exist on the raw hard disk, not inside exported PNG snapshots.",
      "To identify the DVR equipment conclusively, acquire the physical HDD (.img/.raw) " ++
        "or native exported video clip (.dav/.mp4/.h264)."]

def jpegSnapshot (probe : Bytes) : DeviceIdentification :=
  snapshot probe "Still Graphic Image / CCTV Snapshot (JPEG)"
    "Generic JPEG Image (No OEM Tags in Metadata)" "EXIF metadata"
    "No OEM brand metadata (Hikvision, CP PLUS, Dahua, etc.) embedded in EXIF tags." "image-jpeg"
    "FF D8 FF (JPEG SOI)" "Identified JPEG still photo (CCTV snapshot)."
    ["A JPEG photo contains compressed pixel data, NOT a DVR hard drive filesystem.",
      "To identify the DVR equipment conclusively, acquire the physical HDD (.img/.raw) " ++
        "or native exported video clip (.dav/.mp4/.h264)."]

/-- Step 8: still images. -/
def stillImage (probe : Bytes) : Option DeviceIdentification :=
  if [0x89, 0x50, 0x4E, 0x47, 0x0D, 0x0A, 0x1A, 0x0A].isPrefixOf probe then
    some (pngSnapshot probe)
  else if [0xFF, 0xD8, 0xFF].isPrefixOf probe then some (jpegSnapshot probe)
  else none

def containerSteps : List (Bytes → Option DeviceIdentification) :=
  [isoBaseMedia, dahuaStream, riffAvi, matroska, elementaryStream, transportStream,
    standardFilesystem, stillImage]

def detectVideoContainerOrStream (probe : Bytes) : Option DeviceIdentification :=
  if probe.length < 12 then none else containerSteps.findSome? fun step => step probe

end Dvrft.Containers
