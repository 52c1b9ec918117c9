/-
**Output comparison.**

Runs on the host, outside the sandbox, so user code never sees answers. `compareLines` drops
trailing blanks of every line and trailing blank lines; `compareTokens` splits at ASCII whitespace
and, given a tolerance, lets numbers match within it.
-/

import Codexec.Judge.Host
import Mathlib.Data.List.DropRight

namespace Codexec

inductive Comparer
  /-- Line by line; trailing whitespace and trailing blank lines are ignored. -/
  | lines
  /-- Whitespace-separated tokens must match exactly; layout is ignored. -/
  | tokens
  /-- Like `tokens`, but numbers match within an absolute or relative tolerance. -/
  | float (eps : F64)
  deriving DecidableEq

/-- A blank inside a line: space, tab or carriage return. -/
def isBlank (byte : UInt8) : Bool := byte == 0x20 || byte == 0x09 || byte == 0x0D

/-- `u8::is_ascii_whitespace`: space, tab, line feed, form feed, carriage return. -/
def isAsciiWhitespace (byte : UInt8) : Bool :=
  byte == 0x20 || byte == 0x09 || byte == 0x0A || byte == 0x0C || byte == 0x0D

/-- The position of the last element that satisfies a condition. -/
def rposition (wanted : UInt8 → Bool) (line : Bytes) : Option Nat :=
  (line.reverse.findIdx? wanted).map fun back => line.length - 1 - back

/-- A line up to its last byte that is not blank. -/
def trimLine (line : Bytes) : Bytes :=
  line.take ((rposition (fun byte => !isBlank byte) line).elim 0 fun last => last + 1)

def normalizedLines (data : Bytes) : List Bytes :=
  ((data.splitOnP (· == 0x0A)).map trimLine).rdropWhile List.isEmpty

/-- The first position at which two lists differ, where both have one. -/
def firstDifference : Nat → List Bytes → List Bytes → Option Nat
  | index, expected :: restE, actual :: restA =>
    if expected ≠ actual then some index else firstDifference (index + 1) restE restA
  | _, _, _ => none

def compareLines (expected actual : Bytes) : Except String Unit :=
  let e := normalizedLines expected
  let a := normalizedLines actual
  match firstDifference 0 e a with
  | some i => .error s!"line {i + 1} differs"
  | none =>
    if e.length ≠ a.length then .error s!"expected {e.length} lines, got {a.length}" else .ok ()

def tokens (data : Bytes) : List Bytes :=
  (data.splitOnP isAsciiWhitespace).filter fun token => !token.isEmpty

/-- Two tokens that are numbers within the tolerance. -/
def floatsMatch [Host] (expected actual : Bytes) (eps : F64) : Bool :=
  match (Host.parseF64 expected).filter F64.isFinite, (Host.parseF64 actual).filter F64.isFinite with
  | some e, some a =>
    let diff := (Host.subF64 e a).abs
    Host.leF64 diff eps || Host.leF64 diff (Host.mulF64 eps e.abs)
  | _, _ => false

/-- The loop of `compare_tokens`; `index` counts the tokens already matched. -/
def compareTokenLists [Host] (eps : Option F64) : Nat → List Bytes → List Bytes → Except String Unit
  | _, [], [] => .ok ()
  | index, _ :: _, [] => .error s!"output ended early at token {index + 1}"
  | index, [], _ :: _ => .error s!"unexpected extra token {index + 1}"
  | index, et :: restE, at' :: restA =>
    if et = at' then compareTokenLists eps (index + 1) restE restA
    else if eps.any (floatsMatch et at') then compareTokenLists eps (index + 1) restE restA
    else .error s!"token {index + 1} differs"

def compareTokens [Host] (expected actual : Bytes) (eps : Option F64) : Except String Unit :=
  compareTokenLists eps 0 (tokens expected) (tokens actual)

/-- `Ok` on a match, otherwise a short explanation safe to show to users. -/
def compare [Host] (comparer : Comparer) (expected actual : Bytes) : Except String Unit :=
  match comparer with
  | .lines => compareLines expected actual
  | .tokens => compareTokens expected actual none
  | .float eps => compareTokens expected actual (some eps)

end Codexec
