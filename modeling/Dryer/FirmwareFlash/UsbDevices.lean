import Dryer.Library.Sorting
import Dryer.PackageModel.Boards
import Mathlib.Data.Prod.Lex
import Mathlib.Data.String.Basic

/-!
# USB devices

Which of the discovered devices a board may be flashed through: those that match the selection rule
of its package, in an order of their own.
-/
namespace Dryer.FirmwareFlash
open Library PackageModel

structure UsbSelectionRule where
  usbVid : UInt16
  usbPid : UInt16
  serialNumber : Option String
  manufacturer : Option String
  product : Option String
  deriving DecidableEq

def UsbSelectionRule.ofSelector (value : UsbSelector) : UsbSelectionRule where
  usbVid := value.usbVid
  usbPid := value.usbPid
  serialNumber := value.serialNumber
  manufacturer := value.manufacturer
  product := value.product

structure DiscoveredUsbDevice where
  platform : String
  busId : String
  /-- Where the platform finds the device. -/
  location : String
  deviceAddress : UInt8
  usbVid : UInt16
  usbPid : UInt16
  serialNumber : Option String
  manufacturer : Option String
  product : Option String
  deriving DecidableEq

/-- What is not required may be anything, or absent. -/
def optionalExact (observed required : Option String) : Bool :=
  required.all fun required => observed = some required

def DiscoveredUsbDevice.matches (device : DiscoveredUsbDevice) (rule : UsbSelectionRule) : Bool :=
  device.usbVid = rule.usbVid && device.usbPid = rule.usbPid &&
    optionalExact device.serialNumber rule.serialNumber &&
    optionalExact device.manufacturer rule.manufacturer &&
    optionalExact device.product rule.product

abbrev DeviceSortKey :=
  String ×ₗ String ×ₗ String ×ₗ ℕ ×ₗ ℕ ×ₗ ℕ ×ₗ String ×ₗ String ×ₗ String

/-- A text that is absent is in the place of an empty one. -/
def deviceSortKey (device : DiscoveredUsbDevice) : DeviceSortKey :=
  toLex (device.platform, toLex (device.busId, toLex (device.location,
    toLex (device.deviceAddress.toNat, toLex (device.usbVid.toNat, toLex (device.usbPid.toNat,
      toLex (device.serialNumber.getD "", toLex (device.manufacturer.getD "",
        device.product.getD ""))))))))

inductive MatchStatus where
  | missing
  | unique
  | ambiguous
  deriving DecidableEq

structure DeviceSelection where
  rule : UsbSelectionRule
  status : MatchStatus
  candidates : List DiscoveredUsbDevice
  deriving DecidableEq

def matchUsbDevices (rule : UsbSelectionRule) (devices : List DiscoveredUsbDevice) :
    DeviceSelection :=
  let candidates := sortBy deviceSortKey (devices.filter fun device => device.matches rule)
  let status := match candidates.length with
    | 0 => .missing
    | 1 => .unique
    | _ => .ambiguous
  { rule, status, candidates }

/-! ## The order of the candidates -/

/-- What the order of the candidates cannot tell apart: devices that differ, if at all, in texts
that are absent from one and empty in the other. -/
structure SameUpToAbsent (a b : DiscoveredUsbDevice) : Prop where
  platform : a.platform = b.platform
  busId : a.busId = b.busId
  location : a.location = b.location
  deviceAddress : a.deviceAddress = b.deviceAddress
  usbVid : a.usbVid = b.usbVid
  usbPid : a.usbPid = b.usbPid
  serialNumber : a.serialNumber.getD "" = b.serialNumber.getD ""
  manufacturer : a.manufacturer.getD "" = b.manufacturer.getD ""
  product : a.product.getD "" = b.product.getD ""

theorem deviceSortKey_eq_iff {a b : DiscoveredUsbDevice} :
    deviceSortKey a = deviceSortKey b ↔ SameUpToAbsent a b := by
  simp only [deviceSortKey, toLex_inj, Prod.mk.injEq, UInt8.toNat_inj, UInt16.toNat_inj]
  constructor
  · rintro ⟨hplatform, hbus, hlocation, haddress, hvid, hpid, hserial, hmanufacturer, hproduct⟩
    exact ⟨hplatform, hbus, hlocation, haddress, hvid, hpid, hserial, hmanufacturer, hproduct⟩
  · intro h
    exact ⟨h.platform, h.busId, h.location, h.deviceAddress, h.usbVid, h.usbPid, h.serialNumber,
      h.manufacturer, h.product⟩

variable {rule : UsbSelectionRule} {devices discovered : List DiscoveredUsbDevice}

/-- The selection says of the devices what its candidates are. -/
theorem matchUsbDevices_eq_iff :
    matchUsbDevices rule devices = matchUsbDevices rule discovered ↔
      (matchUsbDevices rule devices).candidates = (matchUsbDevices rule discovered).candidates := by
  constructor
  · intro h
    rw [h]
  · intro h
    simp only [matchUsbDevices] at h ⊢
    rw [h]

theorem matchUsbDevices_eq_of_perm (hperm : devices.Perm discovered)
    (htold : ∀ a ∈ devices, ∀ b ∈ devices, a.matches rule → b.matches rule →
      SameUpToAbsent a b → a = b) :
    matchUsbDevices rule devices = matchUsbDevices rule discovered := by
  refine matchUsbDevices_eq_iff.mpr (sortBy_eq_of_perm (hperm.filter _) ?_)
  intro a ha b hb hkey
  obtain ⟨ha, hamatches⟩ := List.mem_filter.mp ha
  obtain ⟨hb, hbmatches⟩ := List.mem_filter.mp hb
  exact htold a ha b hb hamatches hbmatches (deviceSortKey_eq_iff.mp hkey)

/-- The order of discovery does not show exactly when no two matching devices differ only in texts
that are absent from one and empty in the other. -/
theorem matches_in_any_order_iff :
    (∀ discovered, devices.Perm discovered →
      matchUsbDevices rule discovered = matchUsbDevices rule devices) ↔
    ∀ a ∈ devices, ∀ b ∈ devices, a.matches rule → b.matches rule →
      SameUpToAbsent a b → a = b := by
  constructor
  · intro h a ha b hb hamatches hbmatches hsame
    by_contra hne
    have hbrest : b ∈ devices.erase a := (List.mem_erase_of_ne (Ne.symm hne)).mpr hb
    have hab : devices.Perm (a :: b :: (devices.erase a).erase b) :=
      (List.perm_cons_erase ha).trans ((List.perm_cons_erase hbrest).cons a)
    have hba := hab.trans (List.Perm.swap b a _)
    have hsorted := matchUsbDevices_eq_iff.mp ((h _ hab).trans (h _ hba).symm)
    simp only [matchUsbDevices, List.filter_cons, hamatches, hbmatches, if_true] at hsorted
    exact hne (eq_of_sortBy_swap (deviceSortKey_eq_iff.mpr hsame) hsorted)
  · intro htold discovered hperm
    exact (matchUsbDevices_eq_of_perm hperm htold).symm

/-- The device with its serial number, where it has one. -/
def benchDevice (serialNumber : Option String) : DiscoveredUsbDevice where
  platform := "linux"
  busId := "1"
  location := "/sys/bus/usb/devices/1-1"
  deviceAddress := 7
  usbVid := 0x1209
  usbPid := 0xd003
  serialNumber
  manufacturer := none
  product := none

def benchRule : UsbSelectionRule where
  usbVid := 0x1209
  usbPid := 0xd003
  serialNumber := none
  manufacturer := none
  product := none

/-- One device without a serial number and one with an empty one come out as they came in. -/
theorem empty_serial_in_order_of_discovery :
    [benchDevice none, benchDevice (some "")].Perm [benchDevice (some ""), benchDevice none] ∧
      matchUsbDevices benchRule [benchDevice (some ""), benchDevice none] ≠
        matchUsbDevices benchRule [benchDevice none, benchDevice (some "")] :=
  ⟨.swap _ _ _, by decide +kernel⟩

end Dryer.FirmwareFlash
