/-
**What the engine takes from its host.**

A `f64` is its bit pattern. Its parsing, arithmetic and printing and the printing of strings with
`{:?}` come from the standard library; they are the fields of `Host`, and `Host.Debugs` states the
documented facts about printing that a problem version rests on.
-/

import Codexec.Judge.Text

namespace Codexec

/-- A double, by its IEEE 754 bit pattern. -/
structure F64 where
  bits : UInt64
  deriving DecidableEq, Repr

namespace F64

/-- The biased exponent. -/
def exponent (value : F64) : UInt64 := value.bits >>> 52 &&& 0x7FF

def isFinite (value : F64) : Bool := value.exponent != 0x7FF

def isNaN (value : F64) : Bool := value.exponent == 0x7FF && value.bits &&& 0xFFFFFFFFFFFFF != 0

/-- The absolute value clears the sign bit. -/
def abs (value : F64) : F64 := ⟨value.bits &&& 0x7FFFFFFFFFFFFFFF⟩

end F64

/-- The functions of the host. -/
class Host where
  /-- `std::str::from_utf8(t).ok()?.parse::<f64>().ok()` -/
  parseF64 : Bytes → Option F64
  subF64 : F64 → F64 → F64
  mulF64 : F64 → F64 → F64
  leF64 : F64 → F64 → Bool
  /-- `(s * 1000.0).round().max(0.0) as u64` -/
  secondsToMs : F64 → UInt64
  /-- `{:?}` of an `f64`. -/
  debugF64 : F64 → String
  /-- `{:?}` of a string. -/
  debugStr : String → String

/-- What `{:?}` promises of an `f64`: the text determines the number, and has no `|` in it. -/
structure Host.Debugs (host : Host) : Prop where
  injective : ∀ first second : F64, first.isNaN = false → second.isNaN = false →
    host.debugF64 first = host.debugF64 second → first = second
  noBar : ∀ value, '|' ∉ (host.debugF64 value).toList

/-- A host for runs in which no number is parsed and no text needs an escape. -/
@[reducible] def plainHost : Host where
  parseF64 _ := none
  subF64 first _ := first
  mulF64 first _ := first
  leF64 _ _ := false
  secondsToMs _ := 0
  debugF64 value := toString value.bits.toNat
  debugStr text := "\"" ++ text ++ "\""

theorem plainHost_debugs : plainHost.Debugs where
  injective first second _ _ same := by
    have numbers : first.bits.toNat = second.bits.toNat := toString_injective same
    cases first
    cases second
    exact congrArg F64.mk (UInt64.toNat_inj.mp numbers)
  noBar value := by
    intro inside
    exact absurd (isDigit_of_mem_toString inside) (by decide)

end Codexec
