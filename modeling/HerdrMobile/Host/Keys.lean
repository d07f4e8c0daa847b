import Mathlib.Data.List.Basic
import HerdrMobile.Lib.Strings
import HerdrMobile.Proto.Messages

/-!
# The key vocabulary

Which `keys` entries of a `send_input` the bridge lets through to Herdr. Names
are compared without regard to ASCII case.
-/
namespace HerdrMobile.Host.Keys

open HerdrMobile.Proto.Messages

set_option autoImplicit false

/-- A `keys` entry the bridge refuses before it reaches Herdr (R-11-055). -/
structure RejectedKey where
  raw : Text
  deriving DecidableEq

def toAsciiLowercase (text : Text) : Text := text.map Char.toLower

def eqIgnoreAsciiCase (a b : Text) : Bool := toAsciiLowercase a == toAsciiLowercase b

def namedKeys : List Text :=
  ["up".toList, "down".toList, "left".toList, "right".toList, "enter".toList, "return".toList,
    "tab".toList, "esc".toList, "escape".toList, "backspace".toList, "space".toList]

/-- R-10-039, in the order in which they join. -/
def permittedModifiers : List Text := ["ctrl".toList, "alt".toList, "shift".toList]

def forbiddenModifiers : List Text := ["super".toList, "cmd".toList, "meta".toList]

def decimal (digits : Text) : Nat := digits.foldl (fun n c => 10 * n + (c.toNat - '0'.toNat)) 0

/-- `F0` through `F99`. -/
def isFunctionKey (lower : Text) : Bool :=
  match lower with
  | 'f' :: rest => !rest.isEmpty && rest.all Char.isDigit && decide (decimal rest ≤ 99)
  | _ => false

/-- `ctrl+alt+a` is `ctrl` and `alt` before `a`; a name with no `+` is no chord. -/
def splitChord (lower : Text) : Option (List Text × Text) :=
  if '+' ∈ lower then
    let parts := lower.splitOn '+'
    parts.getLast?.map fun base => (parts.dropLast, base)
  else none

def validateChord (modifiers : List Text) (base raw : Text) : Except RejectedKey Unit :=
  if modifiers.isEmpty || base.isEmpty then .error ⟨raw⟩
  else if modifiers.any fun m => !permittedModifiers.contains m || forbiddenModifiers.contains m then
    .error ⟨raw⟩
  else if modifiers ≠ permittedModifiers.filter modifiers.contains then .error ⟨raw⟩
  else if base.length = 1 ∨ base ∈ namedKeys then .ok ()
  else .error ⟨raw⟩

def validateKey (raw : Text) : Except RejectedKey Unit :=
  let lower := toAsciiLowercase raw
  match splitChord lower with
  | some (modifiers, base) => validateChord modifiers base raw
  | none => if lower ∈ namedKeys ∨ isFunctionKey lower then .ok () else .error ⟨raw⟩

theorem eq_plus_of_toLower {c : Char} (h : c.toLower = '+') : c = '+' := by
  by_cases hupper : c.val ≥ 'A'.val ∧ c.val ≤ 'Z'.val
  · have hval : (c.val + 32).toNat = 43 := congrArg Char.toNat ((dif_pos hupper).symm.trans h)
    have hfirst : 65 ≤ c.val.toNat := hupper.1
    have hlast : c.val.toNat ≤ 90 := hupper.2
    have hshift : (32 : UInt32).toNat = 32 := rfl
    rw [UInt32.toNat_add, hshift] at hval
    omega
  · exact (dif_neg hupper).symm.trans h

end HerdrMobile.Host.Keys
