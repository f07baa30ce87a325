import Mathlib.Data.List.Basic
import ConfProfile.Imc.Writer

/-!
# Measurements (`AndroidImc`, the attributes and their collectors)

A measurement is asked for by vendor and type. `getMeasurement` finds the attribute type, collects
the attribute and encodes it with a `BufferedByteWriter`. Each attribute class shows its format in a
diagram; the readers here read these formats.

The installed packages and the settings are counted lists of length-prefixed pairs. Their writers
cut the counts and the lengths to the width of their fields and check nothing, so the list comes
back from the bytes exactly if everything in it fits (`measurement_readable_iff`).
-/

namespace ConfProfile.Imc

open LengthPrefix (Fits getCounted putCounted putPairs getCounted_putCounted_iff)

/-- `String.getBytes`, in UTF-8 as on Android. -/
def getBytes (s : String) : List Byte := s.toUTF8.data.toList.map UInt8.toBitVec

/-- What `getEncoding` makes of its calls on a new writer. -/
def encode (calls : List WriterOp) : Except WriterError (List Byte) := do
  let writer ← calls.foldlM writerStep (.new 0)
  return writer.toByteArray

theorem encode_eq {calls : List WriterOp} (h : (calls.flatMap WriterOp.bytes).length < 2 ^ 29) :
    encode calls = .ok (calls.flatMap WriterOp.bytes) := by
  have hstart : (BufferedByteWriter.new 0).position = 0 := rfl
  obtain ⟨w, hrun, -, hbytes, -⟩ :=
    @foldlM_writerStep calls (.new 0) (by rw [hstart]; omega)
  rw [encode, hrun]
  exact congrArg Except.ok hbytes

/-! ## The attributes -/

inductive PrivateEnterpriseNumber where
  | IETF | GOOGLE | ITA | UNASSIGNED | RESERVED
  deriving DecidableEq

namespace PrivateEnterpriseNumber

def values : List PrivateEnterpriseNumber := [IETF, GOOGLE, ITA, UNASSIGNED, RESERVED]

def getValue : PrivateEnterpriseNumber → BitVec 32
  | IETF => 0x000000
  | GOOGLE => 0x002B79
  | ITA => 0x00902a
  | UNASSIGNED => 0xfffffe
  | RESERVED => 0xffffff

def fromValue (value : BitVec 32) : Option PrivateEnterpriseNumber :=
  values.find? fun pen => pen.getValue = value

end PrivateEnterpriseNumber

/-- `InstalledPackagesAttribute`. -/
structure InstalledPackagesAttribute where
  mPackages : List (String × String)

/-- The calls of `getEncoding`, in their order. -/
def InstalledPackagesAttribute.calls (a : InstalledPackagesAttribute) : List WriterOp :=
  .put16 0 :: .put16 (BitVec.ofNat 16 a.mPackages.length) ::
    a.mPackages.flatMap fun pair => [.putLen8 (getBytes pair.1), .putLen8 (getBytes pair.2)]

/-- `SettingsAttribute`. -/
structure SettingsAttribute where
  mSettings : List (String × String)

def SettingsAttribute.calls (a : SettingsAttribute) : List WriterOp :=
  .put32 (BitVec.ofNat 32 a.mSettings.length) ::
    a.mSettings.flatMap fun pair => [.putLen16 (getBytes pair.1), .putLen16 (getBytes pair.2)]

/-- `Protocol`. -/
inductive Protocol where
  | TCP | UDP
  deriving DecidableEq

def Protocol.getValue : Protocol → Byte
  | TCP => 6
  | UDP => 17

/-- `PortFilterAttribute`. -/
structure PortFilterAttribute where
  mPorts : List (Protocol × BitVec 16)

def PortFilterAttribute.calls (a : PortFilterAttribute) : List WriterOp :=
  a.mPorts.flatMap fun port => [.putByte 0, .putByte port.1.getValue, .put16 port.2]

/-- `StringVersionAttribute`. -/
structure StringVersionAttribute where
  mVersionNumber : String
  mBuildNumber : String

def StringVersionAttribute.calls (a : StringVersionAttribute) : List WriterOp :=
  [.putLen8 (getBytes a.mVersionNumber), .putLen8 (getBytes a.mBuildNumber), .putByte 0]

/-- The calls of `ProductInformationAttribute.getEncoding`. -/
def productInformationCalls : List WriterOp :=
  [.put24 PrivateEnterpriseNumber.GOOGLE.getValue, .put16 0, .put (getBytes "Android")]

inductive AttributeType where
  | IETF_TESTING | IETF_ATTRIBUTE_REQUEST | IETF_PRODUCT_INFORMATION | IETF_NUMERIC_VERSION
  | IETF_STRING_VERSION | IETF_OPERATIONAL_STATUS | IETF_PORT_FILTER | IETF_INSTALLED_PACKAGES
  | IETF_PA_TNC_ERROR | IETF_ASSESSMENT_RESULT | IETF_REMEDIATION_INSTRUCTIONS
  | IETF_FORWARDING_ENABLED | IETF_FACTORY_DEFAULT_PWD_ENABLED | IETF_RESERVED
  | ITA_SETTINGS | ITA_DEVICE_ID
  deriving DecidableEq

namespace AttributeType

def values : List AttributeType :=
  [IETF_TESTING, IETF_ATTRIBUTE_REQUEST, IETF_PRODUCT_INFORMATION, IETF_NUMERIC_VERSION,
    IETF_STRING_VERSION, IETF_OPERATIONAL_STATUS, IETF_PORT_FILTER, IETF_INSTALLED_PACKAGES,
    IETF_PA_TNC_ERROR, IETF_ASSESSMENT_RESULT, IETF_REMEDIATION_INSTRUCTIONS,
    IETF_FORWARDING_ENABLED, IETF_FACTORY_DEFAULT_PWD_ENABLED, IETF_RESERVED,
    ITA_SETTINGS, ITA_DEVICE_ID]

/-- `mVendor` and `mType`. -/
def vendorAndType : AttributeType → PrivateEnterpriseNumber × BitVec 32
  | IETF_TESTING => (.IETF, 0)
  | IETF_ATTRIBUTE_REQUEST => (.IETF, 1)
  | IETF_PRODUCT_INFORMATION => (.IETF, 2)
  | IETF_NUMERIC_VERSION => (.IETF, 3)
  | IETF_STRING_VERSION => (.IETF, 4)
  | IETF_OPERATIONAL_STATUS => (.IETF, 5)
  | IETF_PORT_FILTER => (.IETF, 6)
  | IETF_INSTALLED_PACKAGES => (.IETF, 7)
  | IETF_PA_TNC_ERROR => (.IETF, 8)
  | IETF_ASSESSMENT_RESULT => (.IETF, 9)
  | IETF_REMEDIATION_INSTRUCTIONS => (.IETF, 10)
  | IETF_FORWARDING_ENABLED => (.IETF, 11)
  | IETF_FACTORY_DEFAULT_PWD_ENABLED => (.IETF, 12)
  | IETF_RESERVED => (.IETF, 0xffffffff)
  | ITA_SETTINGS => (.ITA, 4)
  | ITA_DEVICE_ID => (.ITA, 8)

def fromValues (vendor type : BitVec 32) : Option AttributeType :=
  match PrivateEnterpriseNumber.fromValue vendor with
  | none => none
  | some pen => values.find? fun attr => attr.vendorAndType = (pen, type)

end AttributeType

/-! ## The collectors -/

/-- What `InstalledPackagesCollector` looks at in a `PackageInfo`. -/
structure PackageInfo where
  flagSystem : Bool
  packageName : Option String
  versionName : Option String

/-- What the collectors ask the device for. `netstat` is what `PortFilterCollector` reads out of the
lines of `netstat -n`, `none` when it cannot be started. -/
structure Device where
  installedPackages : List PackageInfo
  secure : String → Option String
  system : String → Option String
  toLowerCase : String → String
  netstat : Option (List (Protocol × BitVec 16))
  release : String
  display : String

/-- The loop of `InstalledPackagesCollector.getMeasurement`. -/
def installedPackages (d : Device) : InstalledPackagesAttribute :=
  ⟨d.installedPackages.filterMap fun info =>
    if info.flagSystem then none
    else
      match info.packageName, info.versionName with
      | some name, some version => some (name, version)
      | _, _ => none⟩

/-- `SettingsCollector.getMeasurement`. -/
def settings (d : Device) (args : Option (List String)) : Option SettingsAttribute :=
  match args with
  | none => none
  | some [] => none
  | some mSettings => some ⟨mSettings.filterMap fun name =>
      ((d.secure (d.toLowerCase name)).or (d.system (d.toLowerCase name))).map fun value =>
        (name, value)⟩

/-- How `getMeasurement` can end otherwise. -/
inductive MeasurementError where
  | nullPointer
  | writer (e : WriterError)
  deriving DecidableEq

def encoded (calls : List WriterOp) : Except MeasurementError (Option (List Byte)) :=
  match encode calls with
  | .ok encoding => .ok (some encoding)
  | .error e => .error (.writer e)

/-- `AndroidImc.getMeasurement`. The `switch` on a type that is not found is on `null`. -/
def getMeasurement (d : Device) (vendor type : BitVec 32) (args : Option (List String)) :
    Except MeasurementError (Option (List Byte)) :=
  match AttributeType.fromValues vendor type with
  | none => .error .nullPointer
  | some .IETF_PRODUCT_INFORMATION => encoded productInformationCalls
  | some .IETF_STRING_VERSION => encoded (StringVersionAttribute.calls ⟨d.release, d.display⟩)
  | some .IETF_PORT_FILTER =>
    match d.netstat with
    | some ports => encoded (PortFilterAttribute.calls ⟨ports⟩)
    | none => .ok none
  | some .IETF_INSTALLED_PACKAGES => encoded (installedPackages d).calls
  | some .ITA_SETTINGS =>
    match settings d args with
    | some settings => encoded settings.calls
    | none => .ok none
  | some .ITA_DEVICE_ID => .ok ((d.secure "android_id").map getBytes)
  | some _ => .ok none

/-! ## Reading them back -/

/-- A pair of strings as bytes. -/
def pairBytes (pair : String × String) : List Byte × List Byte :=
  (getBytes pair.1, getBytes pair.2)

/-- The format of the installed packages: two reserved bytes, two of a count, and the names and
versions behind a byte of length. -/
def readPackages (s : List Byte) : Option (List (List Byte × List Byte)) :=
  getCounted 2 1 (s.drop 2)

/-- The format of the settings: four bytes of a count, and the names and values behind two bytes of
length. -/
def readSettings (s : List Byte) : Option (List (List Byte × List Byte)) := getCounted 4 2 s

theorem bytes_packages (a : InstalledPackagesAttribute) : a.calls.flatMap WriterOp.bytes =
    [0, 0] ++ putCounted 2 1 (a.mPackages.map pairBytes) := by
  have hcount : BigEndian.bytes 2 (BitVec.ofNat 16 a.mPackages.length).toNat =
      BigEndian.bytes 2 a.mPackages.length := BigEndian.bytes_mod _ (le_refl 2)
  have hpairs : (a.mPackages.flatMap fun pair =>
      [WriterOp.putLen8 (getBytes pair.1), .putLen8 (getBytes pair.2)]).flatMap WriterOp.bytes =
      putPairs 1 (a.mPackages.map pairBytes) := by
    rw [List.flatMap_assoc, putPairs, List.flatMap_map]
    refine List.flatMap_congr fun pair _ => ?_
    simp [WriterOp.bytes, pairBytes]
  rw [InstalledPackagesAttribute.calls, List.flatMap_cons, List.flatMap_cons, hpairs, putCounted,
    List.length_map, ← hcount]
  rfl

theorem bytes_settings (a : SettingsAttribute) :
    a.calls.flatMap WriterOp.bytes = putCounted 4 2 (a.mSettings.map pairBytes) := by
  have hcount : BigEndian.bytes 4 (BitVec.ofNat 32 a.mSettings.length).toNat =
      BigEndian.bytes 4 a.mSettings.length := BigEndian.bytes_mod _ (le_refl 4)
  have hpairs : (a.mSettings.flatMap fun pair =>
      [WriterOp.putLen16 (getBytes pair.1), .putLen16 (getBytes pair.2)]).flatMap WriterOp.bytes =
      putPairs 2 (a.mSettings.map pairBytes) := by
    rw [List.flatMap_assoc, putPairs, List.flatMap_map]
    refine List.flatMap_congr fun pair _ => ?_
    simp [WriterOp.bytes, pairBytes]
  rw [SettingsAttribute.calls, List.flatMap_cons, hpairs, putCounted, List.length_map, ← hcount]
  rfl

theorem encoded_eq {calls : List WriterOp} (h : (calls.flatMap WriterOp.bytes).length < 2 ^ 29) :
    encoded calls = .ok (some (calls.flatMap WriterOp.bytes)) := by
  rw [encoded, encode_eq h]

theorem encoded_ne_nullPointer (calls : List WriterOp) : encoded calls ≠ .error .nullPointer := by
  unfold encoded
  split
  · exact fun h => nomatch h
  · exact fun h => nomatch h

/-- A request ends with the `NullPointerException` exactly if its type is none of the sixteen. -/
theorem getMeasurement_nullPointer_iff (d : Device) (vendor type : BitVec 32)
    (args : Option (List String)) : getMeasurement d vendor type args = .error .nullPointer ↔
      AttributeType.fromValues vendor type = none := by
  constructor
  · intro h
    unfold getMeasurement at h
    split at h
    next hnone => exact hnone
    next => exact absurd h (encoded_ne_nullPointer _)
    next => exact absurd h (encoded_ne_nullPointer _)
    next =>
      split at h
      · exact absurd h (encoded_ne_nullPointer _)
      · cases h
    next => exact absurd h (encoded_ne_nullPointer _)
    next =>
      split at h
      · exact absurd h (encoded_ne_nullPointer _)
      · cases h
    next => cases h
    next => cases h
  · intro h
    rw [getMeasurement, h]

/-- What is asked for with vendor 0 and type 7. -/
theorem readPackages_iff {d : Device} (args : Option (List String))
    (h : ((installedPackages d).calls.flatMap WriterOp.bytes).length < 2 ^ 29) :
    ∃ encoding, getMeasurement d 0 7 args = .ok (some encoding) ∧
      (readPackages encoding = some ((installedPackages d).mPackages.map pairBytes) ↔
        (installedPackages d).mPackages.length < 256 ^ 2 ∧
        ∀ pair ∈ (installedPackages d).mPackages, Fits 1 (pairBytes pair)) := by
  have htype : AttributeType.fromValues 0 7 = some .IETF_INSTALLED_PACKAGES := by decide
  refine ⟨_, by rw [getMeasurement, htype]; exact encoded_eq h, ?_⟩
  have hdrop : ∀ l : List Byte, ([0, 0] ++ l).drop 2 = l := fun _ => rfl
  rw [readPackages, bytes_packages, hdrop, getCounted_putCounted_iff, List.length_map,
    List.forall_mem_map]

/-- What is asked for with vendor 0x902a and type 4. -/
theorem readSettings_iff {d : Device} {args : Option (List String)} {a : SettingsAttribute}
    (ha : settings d args = some a) (h : (a.calls.flatMap WriterOp.bytes).length < 2 ^ 29) :
    ∃ encoding, getMeasurement d 0x902a 4 args = .ok (some encoding) ∧
      (readSettings encoding = some (a.mSettings.map pairBytes) ↔
        a.mSettings.length < 256 ^ 4 ∧ ∀ pair ∈ a.mSettings, Fits 2 (pairBytes pair)) := by
  have htype : AttributeType.fromValues 0x902a 4 = some .ITA_SETTINGS := by decide
  refine ⟨_, by rw [getMeasurement, htype]; dsimp only; rw [ha]; exact encoded_eq h, ?_⟩
  rw [readSettings, bytes_settings, getCounted_putCounted_iff, List.length_map, List.forall_mem_map]

/-- The measurement of a list of pairs, the installed packages or the settings asked for. While it
encodes to less than 2²⁹ bytes an encoding comes out, and the list is what is read in it exactly if
its length and the lengths of all the strings fit their fields. -/
theorem measurement_readable_iff {d : Device} {args : Option (List String)} {a : SettingsAttribute}
    (hpackages : ((installedPackages d).calls.flatMap WriterOp.bytes).length < 2 ^ 29)
    (ha : settings d args = some a) (h : (a.calls.flatMap WriterOp.bytes).length < 2 ^ 29) :
    (∃ encoding, getMeasurement d 0 7 args = .ok (some encoding) ∧
      (readPackages encoding = some ((installedPackages d).mPackages.map pairBytes) ↔
        (installedPackages d).mPackages.length < 256 ^ 2 ∧
        ∀ pair ∈ (installedPackages d).mPackages, Fits 1 (pairBytes pair))) ∧
    ∃ encoding, getMeasurement d 0x902a 4 args = .ok (some encoding) ∧
      (readSettings encoding = some (a.mSettings.map pairBytes) ↔
        a.mSettings.length < 256 ^ 4 ∧ ∀ pair ∈ a.mSettings, Fits 2 (pairBytes pair)) :=
  ⟨readPackages_iff args hpackages, readSettings_iff ha h⟩

/-- A device with one package of its own and one setting. -/
def Device.small : Device where
  installedPackages := [⟨true, some "android", some "4.4"⟩, ⟨false, some "no.infoss", some "1.0"⟩]
  secure name := if name = "android_id" then some "0123" else none
  system _ := none
  toLowerCase name := name
  netstat := none
  release := "4.4"
  display := "KRT16"

theorem measurement_readable_small :
    (∃ encoding, getMeasurement .small 0 7 (some ["android_id"]) = .ok (some encoding) ∧
      (readPackages encoding = some ((installedPackages .small).mPackages.map pairBytes) ↔
        (installedPackages .small).mPackages.length < 256 ^ 2 ∧
        ∀ pair ∈ (installedPackages .small).mPackages, Fits 1 (pairBytes pair))) ∧
    ∃ encoding, getMeasurement .small 0x902a 4 (some ["android_id"]) = .ok (some encoding) ∧
      (readSettings encoding = some ([("android_id", "0123")].map pairBytes) ↔
        [("android_id", "0123")].length < 256 ^ 4 ∧
        ∀ pair ∈ [("android_id", "0123")], Fits 2 (pairBytes pair)) := by
  have hpackages : ((installedPackages .small).calls.flatMap WriterOp.bytes).length < 2 ^ 29 := by
    decide
  have ha : settings .small (some ["android_id"]) = some ⟨[("android_id", "0123")]⟩ := rfl
  exact measurement_readable_iff hpackages ha (by decide)

end ConfProfile.Imc
