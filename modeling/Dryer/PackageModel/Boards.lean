import Dryer.PackageModel.Payloads

/-!
# Boards

A board offers connectors that the components of a machine claim.
-/
namespace Dryer.PackageModel
open Library MachineSchema

structure Connector where
  kind : String
  pins : Std.TreeMap String String
  pin : Option String
  voltageDomain : Option String
  maxCurrent : Option String
  pullup : Option String

structure UsbSelector where
  usbVid : UInt16
  usbPid : UInt16
  serialNumber : Option String
  manufacturer : Option String
  product : Option String

structure FlashMethod where
  transport : String
  select : UsbSelector
  enterBootloader : List String
  verify : String
  recovery : List String

structure FlashConfig where
  defaultMethod : String
  methods : Std.TreeMap String FlashMethod

structure BoardPackageFile where
  chip : Option String
  connectors : Std.TreeMap String Connector
  /-- The kinds of the transports that the board has. -/
  transports : Std.TreeSet String
  flash : Option FlashConfig

def connectorErrors (κ : Type) [Numbers κ] (reference : String) :
    String × Connector → List PayloadError
  | (cid, c) =>
    (if validIdentifier cid then []
      else [⟨"E0613", s!"{reference}: connector '{cid}' is not a valid identifier"⟩]) ++
    quantityErrors κ c.maxCurrent .current "E0614" s!"{reference}: connector '{cid}' max_current" ++
    quantityErrors κ c.pullup .resistance "E0614" s!"{reference}: connector '{cid}' pullup"

/-! ## Flashing -/

def isBlank (s : String) : Bool := (trim s).isEmpty

def selectErrors (reference methodId : String) : String × Option String → List PayloadError
  | (field, value) =>
    if value.any isBlank then
      [⟨"E0619", s!"{reference}: flash method '{methodId}' select.{field} must not be empty"⟩]
    else []

def methodErrors (reference : String) : String × FlashMethod → List PayloadError
  | (methodId, method) =>
    (if validIdentifier methodId then []
      else [⟨"E0615", s!"{reference}: flash method '{methodId}' is not a valid identifier"⟩]) ++
    (if method.transport = "usb" then []
      else [⟨"E0617", s!"{reference}: flash method '{methodId}' uses unsupported transport " ++
        s!"'{method.transport}' (v0 supports usb)"⟩]) ++
    (if method.verify = "sha256" then []
      else [⟨"E0618", s!"{reference}: flash method '{methodId}' uses unsupported verification " ++
        s!"'{method.verify}' (v0 supports sha256)"⟩]) ++
    [("serial_number", method.select.serialNumber), ("manufacturer", method.select.manufacturer),
      ("product", method.select.product)].flatMap (selectErrors reference methodId) ++
    (if method.enterBootloader.any isBlank || method.recovery.any isBlank then
      [⟨"E0619", s!"{reference}: flash method '{methodId}' instructions must not be empty"⟩]
      else []) ++
    (if method.recovery.isEmpty then
      [⟨"E0619", s!"{reference}: flash method '{methodId}' must provide recovery instructions"⟩]
      else [])

def validateFlash (reference : String) (flash : FlashConfig) : List PayloadError :=
  (if validIdentifier flash.defaultMethod then []
    else [⟨"E0615", s!"{reference}: flash.default_method '{flash.defaultMethod}' is not a " ++
      "valid identifier"⟩]) ++
  (if flash.defaultMethod ∈ flash.methods then []
    else [⟨"E0616", s!"{reference}: flash.default_method '{flash.defaultMethod}' has no " ++
      "matching method"⟩]) ++
  flash.methods.toList.flatMap (methodErrors reference)

/-! ## The payload -/

def boardErrors (κ : Type) [Numbers κ] (reference : String) (board : BoardPackageFile) :
    List PayloadError :=
  board.connectors.toList.flatMap (connectorErrors κ reference) ++
    (board.flash.map (validateFlash reference)).getD []

def boardFormat (κ : Type) [Numbers κ] (fromYaml : String → Except String BoardPackageFile) :
    PayloadFormat BoardPackageFile where
  kind := .board
  noun := "board"
  payload := "board"
  wrongKind := "E0610"
  unreadable := "E0611"
  unparsable := "E0612"
  fromYaml
  check := boardErrors κ

/-- The greatest current of every connector of a checked board is a current. -/
theorem maxCurrent_of_boardErrors {κ : Type} [Numbers κ] {reference port maxCurrent : String}
    {board : BoardPackageFile} {connector : Connector} (h : boardErrors κ reference board = [])
    (hconnector : board.connectors[port]? = some connector)
    (hmax : connector.maxCurrent = some maxCurrent) :
    ∃ limit : Quantity κ, Quantity.parseAs maxCurrent .current = .ok limit := by
  have hmem : (port, connector) ∈ board.connectors.toList :=
    Std.TreeMap.mem_toList_iff_getElem?_eq_some.mpr hconnector
  have hnone := List.flatMap_eq_nil_iff.mp (List.append_eq_nil_iff.mp h).1 _ hmem
  simp only [connectorErrors, List.append_eq_nil_iff, hmax] at hnone
  exact parseAs_of_quantityErrors hnone.1.2

end Dryer.PackageModel
