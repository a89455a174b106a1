import Dvrft.Errors
import Dvrft.Machine
import Dvrft.StreamHash

/-!
Format grammars as the parser holds them after loading: detection rules, magic
signatures and the declared layout of superblock, partition table and video
block. Descriptive fields that no computation reads are left out. A signature
is written in hexadecimal or as text with escapes; hexadecimal wins.
-/

namespace Dvrft.Grammar

open Errors Machine StreamHash

/-- `u8::from_str_radix(s, 16)` on two characters; a plus sign may lead. -/
def hexByte (h1 h2 : Char) : Option UInt8 :=
  if h1 = '+' then (hexValue h2).map UInt8.ofNat
  else match hexValue h1, hexValue h2 with
    | some hi, some lo => some (UInt8.ofNat (16 * hi + lo))
    | _, _ => none

/-- `c as u8` keeps the low byte of the code point. -/
def charByte (c : Char) : UInt8 := UInt8.ofNat (c.toNat % 256)

def unescapeChars : List Char → List UInt8
  | [] => []
  | ['\\'] => [92]
  | ['\\', 'x'] => (hexByte '0' '0').toList
  | ['\\', 'x', h1] => (hexByte h1 '0').toList
  | '\\' :: 'x' :: h1 :: h2 :: rest => (hexByte h1 h2).toList ++ unescapeChars rest
  | '\\' :: '0' :: rest => 0 :: unescapeChars rest
  | '\\' :: 'n' :: rest => 10 :: unescapeChars rest
  | '\\' :: 'r' :: rest => 13 :: unescapeChars rest
  | '\\' :: 't' :: rest => 9 :: unescapeChars rest
  | '\\' :: '\\' :: rest => 92 :: unescapeChars rest
  | '\\' :: other :: rest => 92 :: charByte other :: unescapeChars rest
  | c :: rest => charByte c :: unescapeChars rest

def unescapeAscii (input : String) : List UInt8 := unescapeChars input.toList

/-- Both kinds of signature decode alike and differ in the words of their errors. -/
def decodeSignature (hex ascii : Option String) (invalid missing : String) :
    Except ParserError (List UInt8) :=
  match hex, ascii with
  | some hexStr, _ =>
    match hexDecode hexStr with
    | some bytes => .ok bytes
    | none => .error (.invalidMagicRule (invalid ++ hexStr))
  | none, some asciiStr => .ok (unescapeAscii asciiStr)
  | none, none => .error (.invalidMagicRule missing)

structure DetectionRule where
  offset : ℕ
  magicAscii : Option String
  magicHex : Option String
  deriving DecidableEq, Repr

def DetectionRule.expectedBytes (rule : DetectionRule) : Except ParserError (List UInt8) :=
  decodeSignature rule.magicHex rule.magicAscii "Invalid hex: "
    "Missing magic_hex and magic_ascii"

structure MagicDef where
  offset : ℕ
  bytesAscii : Option String
  bytesHex : Option String
  deriving DecidableEq, Repr

def MagicDef.expectedBytes (magic : MagicDef) : Except ParserError (List UInt8) :=
  decodeSignature magic.bytesHex magic.bytesAscii "Invalid hex in magic: "
    "MagicDef missing bytes_hex and bytes_ascii"

structure FieldDef where
  fieldType : String
  offset : ℕ
  endian : Option String
  role : Option String
  encoding : Option String
  timezone : Option String
  flagMasks : Option (List (String × UInt32))
  deriving DecidableEq, Repr

structure SuperblockDef where
  offset : ℕ
  magic : Option MagicDef
  deriving DecidableEq, Repr

structure PartitionTableDef where
  offset : ℕ
  magic : Option MagicDef
  deriving DecidableEq, Repr

structure VideoHeaderDef where
  size : ℕ
  magic : MagicDef
  fields : List FieldDef
  deriving DecidableEq, Repr

structure VideoPayloadDef where
  offset : ℕ
  defaultLength : ℕ
  deriving DecidableEq, Repr

structure VideoBlockDef where
  fixedSize : ℕ
  header : VideoHeaderDef
  payload : VideoPayloadDef
  deriving DecidableEq, Repr

structure StructureSection where
  superblock : Option SuperblockDef
  partitionTable : Option PartitionTableDef
  videoBlock : VideoBlockDef
  deriving DecidableEq, Repr

structure GrammarFile where
  id : String
  name : String
  tier : ℕ
  descramblePlugin : Option String
  rules : List DetectionRule
  structures : StructureSection
  deriving DecidableEq, Repr

/-- `grammars/dahua-v1.yaml`. -/
def dahuaV1 : GrammarFile where
  id := "dahua-v1"
  name := "Dahua Surveillance Video Format (DHAV/DHFS)"
  tier := 2
  descramblePlugin := none
  rules := [⟨0, some "DHAV", some "44484156"⟩]
  structures :=
    { superblock := none
      partitionTable := none
      videoBlock :=
        { fixedSize := 4096
          header :=
            { size := 24
              magic := ⟨0, some "DHAV", some "44484156"⟩
              fields :=
                [⟨"u16", 4, some "little", some "flags", none, none,
                    some [("video", 0xFD00), ("audio", 0xF000), ("keyframe", 0xFC00)]⟩,
                  ⟨"u16", 6, some "little", some "channel_id", none, none, none⟩,
                  ⟨"u32", 8, some "little", some "sequence_num", none, none, none⟩,
                  ⟨"u32", 12, some "little", some "payload_length", none, none, none⟩,
                  ⟨"u32", 16, some "little", some "timestamp", some "dahua_packed",
                    some "+08:00", none⟩,
                  ⟨"u32", 20, some "little", none, none, none, none⟩] }
          payload := ⟨24, 4072⟩ } }

example : unescapeAscii "C4DVR\\x00\\x01\\x00" = [67, 52, 68, 86, 82, 0, 1, 0] := by decide

end Dvrft.Grammar
