import Mathlib.Algebra.GroupWithZero.Nat
import Ecapplog.Foundations.JsonText
import Ecapplog.Timestamp

/-! The wire protocol: frame layout and the JSON log payload. -/

namespace Ecapplog

abbrev Bytes := List UInt8

def cmdBanner : UInt8 := 99

def cmdLog : UInt8 := 0

def utf8 (text : String) : Bytes :=
  text.toByteArray.data.toList

theorem utf8_ofList_length (text : List Char) :
    (utf8 (String.ofList text)).length = (text.map Char.utf8Size).sum := by
  simp [utf8, List.utf8Encode, List.length_flatMap]

def bannerPrefix : Bytes := [69, 67, 65, 80, 80, 76, 79, 71, 32]

def maxPayloadSize : Nat := 16 * 1024 * 1024

structure LogPayload where
  time : String
  priority : String
  category : String
  message : String
  source : String
  originalCategory : String
  extraCategories : List String
  color : String
  bgColor : String
  deriving DecidableEq, Repr

def LogPayload.fromRecord (record : Record) : LogPayload where
  time := formatUtc record.time
  priority := record.priority.asStr
  category := record.category
  message := record.message
  source := record.source
  originalCategory := record.originalCategory
  extraCategories := record.extraCategories
  color := record.color
  bgColor := record.bgColor

/-- `#[serde(skip_serializing_if = "is_empty")]` on a string field. -/
def unlessEmpty (key value : String) : List (String × JsonText.Value) :=
  if value = "" then [] else [(key, .str value)]

def unlessEmptySlice (key : String) (values : List String) : List (String × JsonText.Value) :=
  if values = [] then [] else [(key, .arr (values.map .str))]

def LogPayload.fields (payload : LogPayload) : List (String × JsonText.Value) :=
  [("time", .str payload.time), ("priority", .str payload.priority),
   ("category", .str payload.category), ("message", .str payload.message)] ++
  unlessEmpty "source" payload.source ++
  unlessEmpty "original_category" payload.originalCategory ++
  unlessEmptySlice "extra_categories" payload.extraCategories ++
  unlessEmpty "color" payload.color ++
  unlessEmpty "bgcolor" payload.bgColor

/-- `serde_json::to_writer` on a payload: the bytes it appends to the buffer, and
the error it stops with, if any. -/
structure SerdeJson where
  toWriter : LogPayload → Bytes × Option SerdeError

def clear (_buffer : Bytes) : Bytes := []

def toBeBytes (n : UInt32) : Bytes :=
  [UInt8.ofNat (n.toNat / 2 ^ 24), UInt8.ofNat (n.toNat / 2 ^ 16),
   UInt8.ofNat (n.toNat / 2 ^ 8), UInt8.ofNat n.toNat]

def fromBeBytes (a b c d : UInt8) : UInt32 :=
  UInt32.ofNat (((a.toNat * 2 ^ 8 + b.toNat) * 2 ^ 8 + c.toNat) * 2 ^ 8 + d.toNat)

/-- Write a complete frame into `out`, replacing whatever it held. The length is
narrowed with `as u32`. -/
def encodeFrame (command : UInt8) (payload : Bytes) (out : Bytes) : Bytes :=
  let out := clear out
  let out := out ++ [command]
  let out := out ++ toBeBytes (UInt32.ofNat payload.length)
  out ++ payload

def bannerPayload (appName : String) : Bytes :=
  bannerPrefix ++ utf8 appName

theorem bannerPayload_length (appName : String) :
    (bannerPayload appName).length = 9 + (utf8 appName).length := by
  have prefixed : bannerPrefix.length = 9 := rfl
  rw [bannerPayload, List.length_append, prefixed]

def frameOf (command : UInt8) (payload : Bytes) : Bytes :=
  encodeFrame command payload []

theorem encodeFrame_eq_frameOf (command : UInt8) (payload out : Bytes) :
    encodeFrame command payload out = frameOf command payload := rfl

theorem frameOf_eq (command : UInt8) (payload : Bytes) :
    frameOf command payload =
      command :: (toBeBytes (UInt32.ofNat payload.length) ++ payload) := rfl

theorem toBeBytes_length (n : UInt32) : (toBeBytes n).length = 4 := rfl

theorem frameOf_length (command : UInt8) (payload : Bytes) :
    (frameOf command payload).length = 5 + payload.length := by
  rw [frameOf_eq, List.length_cons, List.length_append, toBeBytes_length]
  omega

theorem frameOf_ne_nil (command : UInt8) (payload : Bytes) : frameOf command payload ≠ [] := by
  rw [frameOf_eq]
  exact List.cons_ne_nil _ _

theorem fromBeBytes_toBeBytes (n : UInt32) :
    fromBeBytes (UInt8.ofNat (n.toNat / 2 ^ 24)) (UInt8.ofNat (n.toNat / 2 ^ 16))
      (UInt8.ofNat (n.toNat / 2 ^ 8)) (UInt8.ofNat n.toNat) = n := by
  have small := n.toNat_lt
  apply UInt32.toNat_inj.mp
  simp only [fromBeBytes, UInt8.toNat_ofNat', UInt32.toNat_ofNat']
  omega

end Ecapplog
