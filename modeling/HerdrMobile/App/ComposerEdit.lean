import HerdrMobile.App.CodeUnits
import HerdrMobile.Host.Keys
import HerdrMobile.Lib.Splice

/-!
# An edit of the composer

While a modifier is latched, what the keyboard types goes to the Host as chords. The key row
finds the inserted run from the text before and after, and takes it apart character by character.
-/
namespace HerdrMobile.App.ComposerEdit

open HerdrMobile.Lib.Strings HerdrMobile.Lib.Splice
open HerdrMobile.Host.Keys (RejectedKey namedKeys toAsciiLowercase validateKey)
open HerdrMobile.App.PairingText HerdrMobile.App.CodeUnits

set_option autoImplicit false

/-- The code units of a string. -/
abbrev Units := List Nat

inductive ChordModifier where
  | ctrl
  | alt
  deriving DecidableEq, Repr

inductive ChordLatchState where
  | none
  | held
  | locked
  deriving DecidableEq, Repr

def ChordModifier.values : List ChordModifier := [.ctrl, .alt]

def ChordModifier.name : ChordModifier → Text
  | .ctrl => "ctrl".toList
  | .alt => "alt".toList

structure ChordLatch where
  stateOf : ChordModifier → ChordLatchState

namespace ChordLatch

def isLatched (latch : ChordLatch) (modifier : ChordModifier) : Bool :=
  latch.stateOf modifier ≠ .none

def latched (latch : ChordLatch) : List ChordModifier :=
  ChordModifier.values.filter latch.isLatched

/-- `_releaseHeld`. -/
def consume (latch : ChordLatch) : ChordLatch :=
  if ChordModifier.values.any fun modifier => latch.stateOf modifier = .held then
    ⟨fun modifier => if latch.stateOf modifier = .held then .none else latch.stateOf modifier⟩
  else latch

end ChordLatch

structure TextRange where
  start : Int
  stop : Int
  deriving DecidableEq, Repr

def TextRange.isCollapsed (range : TextRange) : Bool := range.start = range.stop

def TextRange.empty : TextRange := ⟨-1, -1⟩

structure TextSelection where
  baseOffset : Int
  extentOffset : Int
  deriving DecidableEq, Repr

def TextSelection.collapsed (offset : Int) : TextSelection := ⟨offset, offset⟩

structure TextEditingValue where
  text : Units
  selection : TextSelection
  composing : TextRange
  deriving DecidableEq, Repr

inductive KeyRowLinkState where
  | live
  | hostInUse
  | offline
  deriving DecidableEq, Repr

/-- A frame with named keys. -/
structure SendInput where
  paneId : Text
  keys : List Units
  deriving DecidableEq, Repr

structure KeyRow where
  paneId : Text
  linkState : KeyRowLinkState
  chordLatch : ChordLatch

/-- The characters of a string as the platform has them, which are grapheme clusters. The lower
case of a character never brings in a plus sign, and is no name of a key. -/
structure Keyboard extends Dart where
  characters : Units → List Units
  characters_flatten : ∀ text, (characters text).flatten = text
  characters_ne_nil : ∀ text, [] ∉ characters text
  toLowerCase_plus : ∀ c, c ≠ '+' → '+' ∉ toLowerCase c
  toLowerCase_named : ∀ c, toAsciiLowercase (toLowerCase c) ∉ namedKeys

def KeyRow.sendingEnabled (row : KeyRow) : Bool := row.linkState = .live

def commonPrefixLength (a b : Units) : Nat := agreeing (min a.length b.length) a b

def commonSuffixLength (a b : Units) (front : Nat) : Nat :=
  agreeing (min a.length b.length - front) a.reverse b.reverse

/-- `toLowerCase` of a string of one code unit. Half of a pair has no lower case. -/
def lowerOf (dart : Dart) (unit : Nat) : Units :=
  if unit < 0x10000 ∧ ¬IsSurrogate unit then codeUnits (lowerUnit dart (Char.ofNat unit))
  else [unit]

/-- The modifiers and the character, joined by plus signs. -/
def chordOf (dart : Dart) (modifiers : List ChordModifier) (char : Units) : Units :=
  ['+'.toNat].intercalate
    (modifiers.map (fun modifier => codeUnits modifier.name) ++ [char.flatMap (lowerOf dart)])

/-- What the loop over the inserted characters keeps. -/
structure Taking where
  latch : ChordLatch
  remaining : Units
  sent : List SendInput
  consumed : Nat

def Taking.take (dart : Dart) (paneId : Text) (s : Taking) (char : Units) : Taking :=
  if s.latch.latched.isEmpty || char.length ≠ 1 then { s with remaining := s.remaining ++ char }
  else
    { latch := s.latch.consume
      remaining := s.remaining
      sent := s.sent ++ [⟨paneId, [chordOf dart s.latch.latched char]⟩]
      consumed := s.consumed + char.length }

structure Outcome where
  value : TextEditingValue
  latch : ChordLatch
  sent : List SendInput

/-- The inserted run of an edit. -/
def insertedRun (before after : Units) : Units :=
  let front := commonPrefixLength before after
  let back := commonSuffixLength before after front
  (after.drop front).take (after.length - back - front)

/-- The link is live for each of the sends, too. -/
def formatComposerEdit (kb : Keyboard) (row : KeyRow) (before after : TextEditingValue) : Outcome :=
  if !row.sendingEnabled || row.chordLatch.latched.isEmpty || !after.composing.isCollapsed then
    ⟨after, row.chordLatch, []⟩
  else
    let front := commonPrefixLength before.text after.text
    let back := commonSuffixLength before.text after.text front
    let inserted := insertedRun before.text after.text
    if inserted.isEmpty then ⟨after, row.chordLatch, []⟩
    else
      let s := (kb.characters inserted).foldl (Taking.take kb.toDart row.paneId)
        ⟨row.chordLatch, [], [], 0⟩
      let value :=
        if s.consumed = 0 then after
        else if s.remaining.isEmpty then before
        else
          ⟨before.text.take front ++ s.remaining ++ after.text.drop (after.text.length - back),
            .collapsed (front + s.remaining.length), .empty⟩
      ⟨value, s.latch, s.sent⟩

/-- A character of the inserted run, and what becomes of it. -/
inductive Piece where
  | kept (char : Units)
  | chord (char : Units) (modifiers : List ChordModifier)
  deriving DecidableEq, Repr

namespace Piece

def char : Piece → Units
  | kept char => char
  | chord char _ => char

def isChord : Piece → Bool
  | kept _ => false
  | chord _ _ => true

def text : Piece → Units
  | kept char => char
  | chord _ _ => []

def uses (modifier : ChordModifier) : Piece → Bool
  | kept _ => false
  | chord _ modifiers => modifiers.contains modifier

def frame (dart : Dart) (paneId : Text) : Piece → Option SendInput
  | kept _ => none
  | chord char modifiers => some ⟨paneId, [chordOf dart modifiers char]⟩

end Piece

/-- The Host takes a string of code units for the name of a key. -/
def Accepted (chord : Units) : Prop :=
  ∃ key : Text, codeUnits key = chord ∧ validateKey key = .ok ()

/-- How many of `n` characters a modifier is for. -/
def ChordLatchState.share (n : Nat) : ChordLatchState → Nat
  | none => 0
  | held => 1
  | locked => n

def ChordLatchState.spent : ChordLatchState → ChordLatchState
  | held => none
  | state => state

/-- The run between the longest common prefix and suffix goes character by character into the
text or to the Host. -/
structure Splits (kb : Keyboard) (row : KeyRow) (before after : TextEditingValue) (out : Outcome)
    (kept removed run rest : Units) (pieces : List Piece) : Prop where
  spliced : Spliced before.text after.text kept removed run rest
  inOrder : pieces.map Piece.char = kb.characters run
  whole : ∀ char modifiers, .chord char modifiers ∈ pieces → ∃ c, char = codeUnits [c]
  sent : out.sent = pieces.filterMap (Piece.frame kb.toDart row.paneId)
  text : out.value.text =
    if pieces ≠ [] ∧ pieces.all Piece.isChord then before.text
    else kept ++ pieces.flatMap Piece.text ++ rest
  wellFormed : WellFormed before.text → WellFormed after.text → WellFormed out.value.text
  consumed : run ≠ [] → ∀ modifier, pieces.countP (Piece.uses modifier) =
    (row.chordLatch.stateOf modifier).share pieces.length
  released : run ≠ [] → ∀ modifier,
    out.latch.stateOf modifier = (row.chordLatch.stateOf modifier).spent
  accepted : ∀ frame ∈ out.sent, ∀ chord ∈ frame.keys, Accepted chord

def IsSplit (kb : Keyboard) (row : KeyRow) (before after : TextEditingValue) (out : Outcome) :
    Prop :=
  ∃ kept removed run rest pieces, Splits kb row before after out kept removed run rest pieces

end HerdrMobile.App.ComposerEdit
