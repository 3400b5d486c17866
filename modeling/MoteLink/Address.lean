/-!
# Node addresses

A node is known by a short address of two bytes or by a long one of eight. Short addresses with
the top bit set are heard by every neighbour, and the short address zero names nobody.
-/

namespace MoteLink

/-- Raw frame contents. -/
abbrev Bytes := List UInt8

/-- Address of a node; short and long addresses are never equal. -/
inductive Address where
  | short (value : UInt16)
  | long (bytes : Vector UInt8 8)
  deriving DecidableEq, Repr

namespace Address

/-- Heard by all nodes within one hop. -/
def broadcast : Address := .short 0xffff

/-- Names no node. -/
def unspecified : Address := .short 0

/-- Stands for the root of the network; it shares its value with `unspecified`. -/
def root : Address := .short 0

/-- The base station. -/
def basestation : Address := .short 1

instance : Inhabited Address := ⟨unspecified⟩

def isBroadcast : Address → Bool
  | .short value => value &&& 0x8000 != 0
  | .long _ => false

def isUnspecified : Address → Bool
  | .short value => value == 0
  | .long _ => false

def isLong : Address → Bool
  | .short _ => false
  | .long _ => true

/-- The value of a short address. -/
def short? : Address → Option UInt16
  | .short value => some value
  | .long _ => none

/-- Bytes that the address takes in a frame. -/
def size : Address → Nat
  | .short _ => 2
  | .long _ => 8

/-- This address, or `other` if this one names nobody. -/
def orElse (a other : Address) : Address :=
  if a.isUnspecified then other else a

/-- The address as it stands in a frame: short ones low byte first, long ones in order. -/
def toBytes : Address → Bytes
  | .short value => [value.toUInt8, (value >>> 8).toUInt8]
  | .long bytes => bytes.toList

/-- The number that picks a node's time slot: the short address, or the first two bytes of a long
    one, low byte first. -/
def slotKey : Address → UInt16
  | .short value => value
  | .long bytes => bytes[0].toUInt16 + bytes[1].toUInt16 <<< 8

/-- The last `count` hex digits of `value`, in lower case. -/
def hexDigits : Nat → Nat → List Char
  | 0, _ => []
  | count + 1, value => hexDigits count (value / 16) ++ [Nat.digitChar (value % 16)]

/-- Four hex digits for a short address; eight pairs with colons between for a long one. -/
def text : Address → String
  | .short value => String.ofList (hexDigits 4 value.toNat)
  | .long bytes =>
    ":".intercalate (bytes.toList.map fun b => String.ofList (hexDigits 2 b.toNat))

theorem length_toBytes (a : Address) : a.toBytes.length = a.size := by
  cases a <;> simp [toBytes, size]

theorem orElse_unspecified (other : Address) : unspecified.orElse other = other := rfl

end Address

end MoteLink
