import Adventure.Wire.MessagePack.Writer
import Adventure.Wire.MessagePack.Reader
import Adventure.Wire.Codec

/-!
# Save envelopes

Every blob that outlives a session is a header of twelve bytes and a payload: the magic `SNAK`, the
version of the format, the kind of the payload and its length, all big-endian.  `unwrap`
checks them in that order and reports the first that is wrong.
-/

namespace Adventure.Save

open Wire

/-- What a payload is. -/
inductive PayloadKind where
  /-- The state of a playthrough. -/
  | progress
  /-- Variables that outlive playthroughs. -/
  | permanent
  /-- A script by itself. -/
  | commandScript
  deriving DecidableEq, Repr

namespace PayloadKind

def code : PayloadKind → Nat
  | progress => 1
  | permanent => 2
  | commandScript => 3

def ofCode? : Nat → Option PayloadKind
  | 1 => some progress
  | 2 => some permanent
  | 3 => some commandScript
  | _ => none

theorem ofCode?_code (k : PayloadKind) : ofCode? k.code = some k := by cases k <;> rfl

/-- The name that messages call it by. -/
def title : PayloadKind → String
  | progress => "Progress"
  | permanent => "Permanent"
  | commandScript => "CommandScript"

end PayloadKind

/-- Why a blob is no save of the kind asked for. -/
inductive SaveFault where
  | truncatedHeader
  | badMagic
  | unsupportedVersion (version : Nat)
  | unknownPayloadKind (code : Nat)
  | kindMismatch (expected actual : PayloadKind)
  | lengthMismatch (expected actual : Nat)
  /-- The payload is not data of the type asked for. -/
  | undecodable
  deriving DecidableEq, Repr

/-- Length of a header in bytes. -/
def headerLength : Nat := 12

def magic : List UInt8 := [0x53, 0x4e, 0x41, 0x4b]

/-- The version that this library writes, and the newest that it reads. -/
def formatVersion : Nat := 1

/-- Four hexadecimal digits. -/
def hexWord (n : Nat) : String :=
  let digits := Nat.toDigits 16 n
  "0x" ++ String.ofList (List.replicate (4 - digits.length) '0' ++ digits)

namespace SaveFault

def message : SaveFault → String
  | truncatedHeader => "header smaller than " ++ toString headerLength ++ " bytes"
  | badMagic => "header magic mismatch"
  | unsupportedVersion version =>
    "save format version " ++ hexWord version ++ " is newer than this build understands"
  | unknownPayloadKind code => "payload kind " ++ hexWord code ++ " is unknown"
  | kindMismatch expected actual =>
    "expected a " ++ expected.title ++ " payload but found " ++ actual.title
  | lengthMismatch expected actual =>
    "payload length mismatch: header declared " ++ toString expected ++ " bytes but read " ++
      toString actual
  | undecodable => "payload decode error"

end SaveFault

/-! ## Headers -/

/-- What a header says about the payload after it. -/
structure Header where
  version : Nat
  kind : PayloadKind
  length : Nat
  deriving DecidableEq, Repr

namespace Header

def encode (h : Header) : List UInt8 :=
  magic ++ MessagePack.bigEndian 2 h.version ++ MessagePack.bigEndian 2 h.kind.code ++
    MessagePack.bigEndian 4 h.length

/-- Reads the header at the front. -/
def decode (bytes : List UInt8) : Except SaveFault Header :=
  if bytes.length < headerLength then .error .truncatedHeader
  else if bytes.take 4 ≠ magic then .error .badMagic
  else
    let version := MessagePack.ofBigEndian ((bytes.drop 4).take 2)
    if version > formatVersion then .error (.unsupportedVersion version)
    else
      let code := MessagePack.ofBigEndian ((bytes.drop 6).take 2)
      match PayloadKind.ofCode? code with
      | none => .error (.unknownPayloadKind code)
      | some kind => .ok ⟨version, kind, MessagePack.ofBigEndian ((bytes.drop 8).take 4)⟩

end Header

/-! ## Envelopes -/

/-- Puts a payload into an envelope.  Its length has to fit into 32 bits. -/
def wrap (kind : PayloadKind) (payload : List UInt8) : Except SaveFault (List UInt8) :=
  if payload.length < 0x100000000 then
    .ok (Header.encode ⟨formatVersion, kind, payload.length⟩ ++ payload)
  else .error (.lengthMismatch 0xffffffff payload.length)

/-- Splits an envelope into its header and payload. -/
def unwrap (bytes : List UInt8) : Except SaveFault (Header × List UInt8) :=
  match Header.decode bytes with
  | .error fault => .error fault
  | .ok header =>
    let payload := bytes.drop headerLength
    if payload.length = header.length then .ok (header, payload)
    else .error (.lengthMismatch header.length payload.length)

/-- The payload of an envelope of a kind. -/
def unwrapKind (kind : PayloadKind) (bytes : List UInt8) : Except SaveFault (List UInt8) :=
  match unwrap bytes with
  | .error fault => .error fault
  | .ok (header, payload) =>
    if header.kind = kind then .ok payload else .error (.kindMismatch kind header.kind)

/-- The packed form of a value. -/
def pack {α : Type} [Wire α] (a : α) : List UInt8 := MessagePack.write (Wire.encode a)

/-- Reads a value from its packed form; what follows it is left alone. -/
def unpack? {α : Type} [Wire α] (bytes : List UInt8) : Option α :=
  (MessagePack.read? bytes).bind (decode? .packed)

/-- A value as a blob of a kind. -/
def toBlob {α : Type} [Wire α] (kind : PayloadKind) (a : α) : Except SaveFault (List UInt8) :=
  wrap kind (pack a)

/-- Reads a value from a blob of a kind. -/
def ofBlob {α : Type} [Wire α] (kind : PayloadKind) (bytes : List UInt8) : Except SaveFault α :=
  match unwrapKind kind bytes with
  | .error fault => .error fault
  | .ok payload =>
    match unpack? payload with
    | some a => .ok a
    | none => .error .undecodable

end Adventure.Save
