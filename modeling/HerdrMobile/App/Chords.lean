import HerdrMobile.App.ComposerEdit
import HerdrMobile.App.InputAgreement
import HerdrMobile.Host.KeyGrammar

/-!
# The chords of an edit

When the Host takes what the key row sends for a typed run, and every latched modifier is for the
characters that it is meant for.
-/
namespace HerdrMobile.App.Chords

open HerdrMobile.Lib.Strings HerdrMobile.Lib.Splice
open HerdrMobile.Host.Keys HerdrMobile.Host.KeyGrammar
open HerdrMobile.App.PairingText HerdrMobile.App.CodeUnits HerdrMobile.App.ComposerEdit
open HerdrMobile.App.ComposerEdit (Piece)

set_option autoImplicit false

variable {kb : Keyboard} {row : KeyRow} {before after : TextEditingValue} {latch : ChordLatch}
  {modifier : ChordModifier} {modifiers : List ChordModifier} {char : Units} {chars : List Units}

theorem mem_latched : modifier ∈ latch.latched ↔ latch.stateOf modifier ≠ .none := by
  have hall : modifier ∈ ChordModifier.values := by cases modifier <;> decide
  simp [ChordLatch.latched, ChordLatch.isLatched, hall]

theorem not_latched : latch.latched = [] ↔ ∀ modifier, latch.stateOf modifier = .none := by
  rw [List.eq_nil_iff_forall_not_mem]
  exact forall_congr' fun modifier => by rw [mem_latched, not_not]

theorem consume_stateOf (latch : ChordLatch) (modifier : ChordModifier) :
    latch.consume.stateOf modifier = (latch.stateOf modifier).spent := by
  unfold ChordLatch.consume
  split
  · cases hstate : latch.stateOf modifier <;> simp [hstate, ChordLatchState.spent]
  · next hnone =>
    have hmem : modifier ∈ ChordModifier.values := by cases modifier <;> decide
    have hheld : latch.stateOf modifier ≠ .held := by
      intro heq
      exact hnone (List.any_eq_true.mpr ⟨modifier, hmem, decide_eq_true heq⟩)
    cases hstate : latch.stateOf modifier with
    | none => rfl
    | held => exact absurd hstate hheld
    | locked => rfl

/-- The names of latched modifiers are in the order of the Host. -/
theorem latched_chorded (h : latch.latched ≠ []) :
    Chorded (latch.latched.map ChordModifier.name) := by
  refine ⟨by simpa using h, ?_⟩
  have hsub : (latch.latched.map ChordModifier.name).Sublist
      (ChordModifier.values.map ChordModifier.name) := List.filter_sublist.map _
  exact hsub.trans (by decide)

/-- A character of one code unit that makes a key: no half of a pair, no plus sign, and with a
lower case of one character. -/
def Plain (dart : Dart) (char : Units) : Prop :=
  ∃ c : Char, char = codeUnits [c] ∧ c.toNat < 0x10000 ∧ c ≠ '+' ∧ (lowerUnit dart c).length = 1

/-- What stands in front of the character. -/
def stem (modifiers : List ChordModifier) : Text :=
  modifiers.flatMap fun modifier => modifier.name ++ ['+']

theorem joined_stem (modifiers : List ChordModifier) (base : Text) :
    joined (modifiers.map ChordModifier.name) base = stem modifiers ++ base := by
  unfold joined
  induction modifiers with
  | nil => simp [stem]
  | cons m rest ih =>
    rw [List.map_cons, List.cons_append, List.intercalate_cons_of_ne_nil (by simp), ih]
    simp [stem]

theorem chordOf_eq (dart : Dart) (modifiers : List ChordModifier) (char : Units) :
    chordOf dart modifiers char = codeUnits (stem modifiers) ++ char.flatMap (lowerOf dart) := by
  unfold chordOf
  induction modifiers with
  | nil => simp [stem, codeUnits]
  | cons m rest ih =>
    rw [List.map_cons, List.cons_append, List.intercalate_cons_of_ne_nil (by simp), ih]
    have hcons : codeUnits (stem (m :: rest)) =
        codeUnits m.name ++ ['+'.toNat] ++ codeUnits (stem rest) := by
      rw [stem, List.flatMap_cons, codeUnits_append, codeUnits_append]
      rfl
    rw [hcons]
    simp only [List.append_assoc]

theorem stem_lower (modifiers : List ChordModifier) :
    toAsciiLowercase (stem modifiers) = stem modifiers := by
  induction modifiers with
  | nil => rfl
  | cons m rest ih =>
    have hname : toAsciiLowercase (m.name ++ ['+']) = m.name ++ ['+'] := by cases m <;> decide
    unfold toAsciiLowercase at hname ih ⊢
    rw [stem, List.flatMap_cons, List.map_append, hname, ← stem, ih]

theorem lowerUnit_ne_nil (dart : Dart) (c : Char) : lowerUnit dart c ≠ [] := by
  unfold lowerUnit
  split
  · exact List.cons_ne_nil _ _
  · split
    · exact dart.toLowerCase_ne_nil c
    · exact List.cons_ne_nil _ _

theorem lowerUnit_plus (kb : Keyboard) {c : Char} (h : c ≠ '+') :
    '+' ∉ lowerUnit kb.toDart c := by
  unfold lowerUnit
  split
  · intro hmem
    exact h (eq_plus_of_toLower (List.mem_singleton.mp hmem).symm)
  · split
    · exact kb.toLowerCase_plus c h
    · exact fun hmem => h (List.mem_singleton.mp hmem).symm

theorem single_not_named (c : Char) : [c] ∉ namedKeys := by
  intro hmem
  have hlen := (named_plain hmem).2.1
  exact absurd hlen (by simp)

theorem lowerUnit_named (kb : Keyboard) (c : Char) :
    toAsciiLowercase (lowerUnit kb.toDart c) ∉ namedKeys := by
  unfold lowerUnit
  split
  · exact single_not_named _
  · split
    · exact kb.toLowerCase_named c
    · exact single_not_named _

/-- The Host on the chord of a character that is no half of a pair. -/
theorem validateKey_stem (kb : Keyboard) (h : Chorded (modifiers.map ChordModifier.name))
    (c : Char) : validateKey (stem modifiers ++ lowerUnit kb.toDart c) = .ok () ↔
      c ≠ '+' ∧ (lowerUnit kb.toDart c).length = 1 := by
  have hraw : toAsciiLowercase (stem modifiers ++ lowerUnit kb.toDart c) =
      joined (modifiers.map ChordModifier.name) (toAsciiLowercase (lowerUnit kb.toDart c)) := by
    rw [joined_stem]
    exact List.map_append.trans (congrArg (· ++ _) (stem_lower modifiers))
  by_cases hplus : c = '+'
  · subst hplus
    exact iff_of_false (validateKey_plus hraw h) fun hall => hall.1 rfl
  · have hbase : '+' ∉ toAsciiLowercase (lowerUnit kb.toDart c) := by
      intro hmem
      obtain ⟨d, hd, hlower⟩ := List.mem_map.mp hmem
      exact lowerUnit_plus kb hplus (eq_plus_of_toLower hlower ▸ hd)
    have hne : toAsciiLowercase (lowerUnit kb.toDart c) ≠ [] :=
      mt List.map_eq_nil_iff.mp (lowerUnit_ne_nil kb.toDart c)
    rw [validateKey_chord hraw h hbase hne, or_iff_left (lowerUnit_named kb c), toAsciiLowercase,
      List.length_map]
    exact (and_iff_right hplus).symm

/-- The Host takes the chords of the plain characters. -/
theorem accepted_iff (kb : Keyboard) (h : Chorded (modifiers.map ChordModifier.name))
    (hchar : char.length = 1) :
    Accepted (chordOf kb.toDart modifiers char) ↔ Plain kb.toDart char := by
  obtain ⟨unit, rfl⟩ := List.length_eq_one_iff.mp hchar
  rw [chordOf_eq, List.flatMap_singleton]
  constructor
  · rintro ⟨key, hkey, hok⟩
    obtain ⟨tail, rfl, htail⟩ := append_of_codeUnits hkey
    unfold lowerOf at htail
    split at htail
    · next hunit =>
      obtain ⟨hlt, hsurrogate⟩ := hunit
      have hc : (Char.ofNat unit).toNat = unit := by
        have hvalid : unit.isValidChar := by
          unfold IsSurrogate at hsurrogate
          unfold Nat.isValidChar
          omega
        rw [Char.ofNat, dif_pos hvalid]
        exact UInt32.toNat_ofNatLT
      have hlow : (Char.ofNat unit).toNat < 0x10000 := by omega
      rw [codeUnits_injective htail] at hok
      obtain ⟨hplus, hone⟩ := (validateKey_stem kb h _).mp hok
      exact ⟨Char.ofNat unit, by rw [codeUnits_single hlow, hc], hlow, hplus, hone⟩
    · next hunit =>
      obtain ⟨c, rfl, rfl, hlt⟩ := char_of_codeUnits htail
      have hvalid := char_lt c
      unfold IsSurrogate at hunit
      omega
  · rintro ⟨c, hunit, hlt, hplus, hone⟩
    rw [codeUnits_single hlt] at hunit
    obtain rfl := List.singleton_inj.mp hunit
    have hvalid := char_lt c
    have hlower : lowerOf kb.toDart c.toNat = codeUnits (lowerUnit kb.toDart c) := by
      unfold lowerOf IsSurrogate
      rw [if_pos (by omega), Char.ofNat_toNat]
    have hok := (validateKey_stem kb h c).mpr ⟨hplus, hone⟩
    exact ⟨stem modifiers ++ lowerUnit kb.toDart c, by rw [codeUnits_append, hlower], hok⟩

/-- What becomes of each character from a latch on. -/
def split : ChordLatch → List Units → List Piece
  | _, [] => []
  | latch, char :: chars =>
    if latch.latched.isEmpty || char.length ≠ 1 then .kept char :: split latch chars
    else .chord char latch.latched :: split latch.consume chars

/-- The cases of one character: nothing is latched or it is no single code unit, or it is a
chord. -/
theorem split_cons (latch : ChordLatch) (char : Units) (chars : List Units) :
    ((latch.latched = [] ∨ char.length ≠ 1) ∧
      split latch (char :: chars) = .kept char :: split latch chars) ∨
    (latch.latched ≠ [] ∧ char.length = 1 ∧
      split latch (char :: chars) = .chord char latch.latched :: split latch.consume chars) := by
  rw [split]
  split
  · next h => exact .inl ⟨by simpa using h, rfl⟩
  · next h =>
    obtain ⟨hlatched, hone⟩ : latch.latched ≠ [] ∧ char.length = 1 := by simpa using h
    exact .inr ⟨hlatched, hone, rfl⟩

theorem consume_consume (latch : ChordLatch) : latch.consume.consume = latch.consume := by
  have hstates : latch.consume.consume.stateOf = latch.consume.stateOf := by
    funext modifier
    rw [consume_stateOf, consume_stateOf]
    cases latch.stateOf modifier <;> rfl
  exact congrArg ChordLatch.mk hstates

/-- The latch once all characters are taken. -/
def left (latch : ChordLatch) (pieces : List Piece) : ChordLatch :=
  if pieces.any Piece.isChord then latch.consume else latch

theorem left_consume (latch : ChordLatch) (pieces : List Piece) :
    left latch.consume pieces = latch.consume := by
  unfold left
  split
  · exact consume_consume latch
  · rfl

theorem foldl_take (dart : Dart) (paneId : Text) (s : Taking) (chars : List Units) :
    chars.foldl (Taking.take dart paneId) s =
      ⟨left s.latch (split s.latch chars),
        s.remaining ++ (split s.latch chars).flatMap Piece.text,
        s.sent ++ (split s.latch chars).filterMap (Piece.frame dart paneId),
        s.consumed + (split s.latch chars).countP Piece.isChord⟩ := by
  induction chars generalizing s with
  | nil => simp [split, left]
  | cons char chars ih =>
    rw [List.foldl_cons, ih]
    obtain ⟨hkept, heq⟩ | ⟨hlatched, hone, heq⟩ := split_cons s.latch char chars
    · have hstep : s.take dart paneId char = { s with remaining := s.remaining ++ char } := by
        rw [Taking.take, if_pos (by simpa using hkept)]
      rw [hstep, heq, List.countP_cons_of_neg (by simp [Piece.isChord])]
      simp [left, Piece.text, Piece.isChord, Piece.frame, List.filterMap_cons]
    · have hstep : s.take dart paneId char =
          ⟨s.latch.consume, s.remaining,
            s.sent ++ [⟨paneId, [chordOf dart s.latch.latched char]⟩], s.consumed + 1⟩ := by
        rw [Taking.take, if_neg (by simp [hlatched, hone]), hone]
      rw [hstep, heq, left_consume, List.countP_cons_of_pos rfl]
      simp [left, Piece.text, Piece.isChord, Piece.frame, Nat.add_assoc, Nat.add_comm 1]

theorem split_char (latch : ChordLatch) (chars : List Units) :
    (split latch chars).map Piece.char = chars := by
  induction chars generalizing latch with
  | nil => rfl
  | cons char chars ih =>
    obtain ⟨-, heq⟩ | ⟨-, -, heq⟩ := split_cons latch char chars
    · rw [heq, List.map_cons, ih, Piece.char]
    · rw [heq, List.map_cons, ih, Piece.char]

theorem split_length (latch : ChordLatch) (chars : List Units) :
    (split latch chars).length = chars.length := by
  rw [← List.length_map Piece.char, split_char]

theorem uses_latched : Piece.uses modifier (.chord char latch.latched) =
    decide (latch.stateOf modifier ≠ .none) := by
  rw [Bool.eq_iff_iff, decide_eq_true_iff, ← mem_latched]
  exact List.contains_iff_mem

/-- A held modifier is in the first chord alone, a locked one in each. -/
theorem countP_uses (latch : ChordLatch) (chars : List Units) (modifier : ChordModifier) :
    (split latch chars).countP (Piece.uses modifier) =
      min ((latch.stateOf modifier).share ((split latch chars).countP Piece.isChord))
        ((split latch chars).countP Piece.isChord) := by
  induction chars generalizing latch with
  | nil => exact (Nat.min_zero _).symm
  | cons char chars ih =>
    obtain ⟨-, heq⟩ | ⟨-, -, heq⟩ := split_cons latch char chars
    · rw [heq, List.countP_cons_of_neg (by simp [Piece.uses]),
        List.countP_cons_of_neg (by simp [Piece.isChord]), ih]
    · rw [heq, List.countP_cons, List.countP_cons_of_pos rfl, ih, consume_stateOf, uses_latched]
      cases latch.stateOf modifier with
      | none => simp [ChordLatchState.share, ChordLatchState.spent]
      | held => simp [ChordLatchState.share, ChordLatchState.spent]
      | locked => simp [ChordLatchState.share, ChordLatchState.spent]

theorem mem_split (h : Piece.chord char modifiers ∈ split latch chars) :
    char ∈ chars ∧ char.length = 1 ∧ Chorded (modifiers.map ChordModifier.name) := by
  induction chars generalizing latch with
  | nil => cases h
  | cons next chars ih =>
    obtain ⟨-, heq⟩ | ⟨hlatched, hone, heq⟩ := split_cons latch next chars
    · rw [heq] at h
      obtain hhead | htail := List.mem_cons.mp h
      · cases hhead
      · exact (ih htail).imp_left (List.mem_cons_of_mem _)
    · rw [heq] at h
      obtain hhead | htail := List.mem_cons.mp h
      · cases hhead
        exact ⟨List.mem_cons_self, hone, latched_chorded hlatched⟩
      · exact (ih htail).imp_left (List.mem_cons_of_mem _)

theorem not_mem_split (h : latch.latched = []) :
    Piece.chord char modifiers ∉ split latch chars := by
  induction chars with
  | nil => exact List.not_mem_nil
  | cons next chars ih =>
    obtain ⟨-, heq⟩ | ⟨hlatched, -, -⟩ := split_cons latch next chars
    · rw [heq]
      exact List.not_mem_cons_of_ne_of_not_mem (fun hkind => by cases hkind) ih
    · exact absurd h hlatched

/-- Without a lock the first character of one code unit is the only chord. -/
theorem mem_split_held (hfree : ∀ modifier, latch.stateOf modifier ≠ .locked)
    (h : Piece.chord char modifiers ∈ split latch chars) :
    chars.find? (fun char => char.length = 1) = some char := by
  induction chars with
  | nil => cases h
  | cons next chars ih =>
    obtain ⟨hkept, heq⟩ | ⟨hlatched, hone, heq⟩ := split_cons latch next chars
    · rw [heq] at h
      obtain hhead | htail := List.mem_cons.mp h
      · cases hhead
      · have hone : next.length ≠ 1 := by
          obtain hnone | hone := hkept
          · exact absurd htail (not_mem_split hnone)
          · exact hone
        rw [List.find?_cons_of_neg (by simpa using hone)]
        exact ih htail
    · rw [List.find?_cons_of_pos (by simpa using hone)]
      rw [heq] at h
      obtain hhead | htail := List.mem_cons.mp h
      · cases hhead
        rfl
      · have hnone : latch.consume.latched = [] := by
          rw [not_latched]
          intro modifier
          rw [consume_stateOf]
          cases hstate : latch.stateOf modifier with
          | none => rfl
          | held => rfl
          | locked => exact absurd hstate (hfree modifier)
        exact absurd htail (not_mem_split hnone)

/-- With a lock each character of one code unit is a chord. -/
theorem isChord_of_locked (hlock : latch.stateOf modifier = .locked)
    (hone : ∀ char ∈ chars, char.length = 1) :
    ∀ piece ∈ split latch chars, piece.isChord = true := by
  induction chars generalizing latch with
  | nil => exact fun piece h => by cases h
  | cons char chars ih =>
    obtain ⟨hkept, -⟩ | ⟨-, -, heq⟩ := split_cons latch char chars
    · obtain hnone | hne := hkept
      · rw [(not_latched).mp hnone modifier] at hlock
        cases hlock
      · exact absurd (hone char List.mem_cons_self) hne
    · rw [heq]
      have hnext : latch.consume.stateOf modifier = .locked := by rw [consume_stateOf, hlock]; rfl
      exact List.forall_mem_cons.mpr
        ⟨rfl, ih hnext fun char h => hone char (List.mem_cons_of_mem _ h)⟩

theorem exists_chord (hlatched : latch.latched ≠ []) (h : char ∈ chars) (hone : char.length = 1) :
    0 < (split latch chars).countP Piece.isChord := by
  induction chars with
  | nil => cases h
  | cons next chars ih =>
    obtain ⟨hkept, heq⟩ | ⟨-, -, heq⟩ := split_cons latch next chars
    · have hne : next.length ≠ 1 := hkept.resolve_left hlatched
      obtain rfl | htail := List.mem_cons.mp h
      · exact absurd hone hne
      · rw [heq, List.countP_cons_of_neg (by simp [Piece.isChord])]
        exact ih htail
    · rw [heq, List.countP_cons_of_pos rfl]
      exact Nat.succ_pos _

variable {pieces : List Piece}

theorem all_kept (h : pieces.countP Piece.isChord = 0) :
    pieces.any Piece.isChord = false ∧ pieces.flatMap Piece.text = (pieces.map Piece.char).flatten ∧
      ∀ dart paneId, pieces.filterMap (Piece.frame dart paneId) = [] := by
  have hkept : ∀ piece ∈ pieces, piece.isChord = false := by
    simpa using List.countP_eq_zero.mp h
  refine ⟨List.any_eq_false.mpr fun piece hp => by simp [hkept piece hp], ?_, ?_⟩
  · rw [List.flatMap_def]
    refine congrArg List.flatten (List.map_congr_left fun piece hp => ?_)
    cases piece with
    | kept char => rfl
    | chord char modifiers => cases hkept _ hp
  · intro dart paneId
    refine List.filterMap_eq_nil_iff.mpr fun piece hp => ?_
    cases piece with
    | kept char => rfl
    | chord char modifiers => cases hkept _ hp

/-- Nothing is left of the run when each character has become a chord. -/
theorem text_eq_nil (hne : [] ∉ pieces.map Piece.char) :
    pieces.flatMap Piece.text = [] ↔ pieces.all Piece.isChord = true := by
  rw [List.flatMap_eq_nil_iff, List.all_eq_true]
  refine forall₂_congr fun piece hp => ?_
  cases piece with
  | kept char =>
    have hchar : char ≠ [] := fun hnil => hne (List.mem_map.mpr ⟨_, hp, hnil⟩)
    exact iff_of_false hchar Bool.false_ne_true
  | chord char modifiers => exact iff_of_true rfl rfl

theorem characters_nil (kb : Keyboard) : kb.characters [] = [] := by
  refine List.eq_nil_iff_forall_not_mem.mpr fun char hchar => ?_
  have hnil : char = [] := List.flatten_eq_nil_iff.mp (kb.characters_flatten []) char hchar
  exact kb.characters_ne_nil [] (hnil ▸ hchar)

/-- What becomes of the characters that an edit inserts. -/
def piecesOf (kb : Keyboard) (row : KeyRow) (before after : TextEditingValue) : List Piece :=
  split row.chordLatch (kb.characters (insertedRun before.text after.text))

/-- The outcome is what the pieces say. -/
structure Follows (kb : Keyboard) (row : KeyRow) (before : TextEditingValue) (out : Outcome)
    (kept rest : Units) (pieces : List Piece) : Prop where
  sent : out.sent = pieces.filterMap (Piece.frame kb.toDart row.paneId)
  latch : out.latch = left row.chordLatch pieces
  text : out.value.text =
    if pieces ≠ [] ∧ pieces.all Piece.isChord then before.text
    else kept ++ pieces.flatMap Piece.text ++ rest

/-- An edit without a chord is left as it is. -/
theorem follows_after (row : KeyRow) {kept removed run rest : Units}
    (hspliced : Spliced before.text after.text kept removed run rest)
    (hchars : pieces.map Piece.char = kb.characters run)
    (hnone : pieces.countP Piece.isChord = 0) :
    Follows kb row before ⟨after, row.chordLatch, []⟩ kept rest pieces := by
  obtain ⟨hany, htext, hsent⟩ := all_kept hnone
  refine ⟨(hsent _ _).symm, ?_, ?_⟩
  · rw [left, hany]
    rfl
  · have hnot : ¬(pieces ≠ [] ∧ pieces.all Piece.isChord = true) := by
      rintro ⟨hne, hall⟩
      have hcount := List.countP_eq_length.mpr (List.all_eq_true.mp hall)
      exact hne (List.length_eq_zero_iff.mp (hcount.symm.trans hnone))
    rw [if_neg hnot, htext, hchars, kb.characters_flatten]
    exact hspliced.after

/-- What an edit comes to while the link is live and no input is composed. -/
theorem formatComposerEdit_spec (kb : Keyboard) (before after : TextEditingValue)
    (hlive : row.linkState = .live) (hcomposing : after.composing.isCollapsed = true) :
    ∃ kept removed rest,
      Spliced before.text after.text kept removed (insertedRun before.text after.text) rest ∧
      Follows kb row before (formatComposerEdit kb row before after) kept rest
        (piecesOf kb row before after) := by
  have hspliced := splice_agreeing (a := before.text) (b := after.text) rfl rfl
  refine ⟨_, _, _, hspliced, ?_⟩
  have hchars : (piecesOf kb row before after).map Piece.char =
      kb.characters (insertedRun before.text after.text) := split_char _ _
  have hsending : row.sendingEnabled = true := decide_eq_true hlive
  unfold formatComposerEdit
  by_cases hlatched : row.chordLatch.latched = []
  · have hnone : (piecesOf kb row before after).countP Piece.isChord = 0 := by
      refine List.countP_eq_zero.mpr fun piece hp hchord => ?_
      cases piece with
      | kept char => cases hchord
      | chord char modifiers => exact not_mem_split hlatched hp
    rw [if_pos (by simp [hlatched])]
    exact follows_after row hspliced hchars hnone
  · rw [if_neg (by simp [hlatched, hsending, hcomposing])]
    by_cases hrun : insertedRun before.text after.text = []
    · have hnone : (piecesOf kb row before after).countP Piece.isChord = 0 := by
        rw [hrun, characters_nil, List.map_eq_nil_iff] at hchars
        rw [hchars]
        rfl
      rw [if_pos (by simpa using hrun)]
      exact follows_after row hspliced hchars hnone
    · rw [if_neg (by simpa using hrun), foldl_take]
      have hpieces : split row.chordLatch (kb.characters (insertedRun before.text after.text)) =
          piecesOf kb row before after := rfl
      simp only [List.nil_append, Nat.zero_add, hpieces]
      refine ⟨rfl, rfl, ?_⟩
      by_cases hcount : (piecesOf kb row before after).countP Piece.isChord = 0
      · rw [if_pos hcount]
        exact (follows_after row hspliced hchars hcount).text
      · rw [if_neg hcount]
        have hne : [] ∉ (piecesOf kb row before after).map Piece.char :=
          hchars ▸ kb.characters_ne_nil _
        have hsome : piecesOf kb row before after ≠ [] := fun hnil => hcount (by rw [hnil]; rfl)
        by_cases hall : (piecesOf kb row before after).all Piece.isChord = true
        · rw [if_pos (List.isEmpty_iff.mpr ((text_eq_nil hne).mpr hall)), if_pos ⟨hsome, hall⟩]
        · rw [if_neg fun h => hall ((text_eq_nil hne).mp (List.isEmpty_iff.mp h)),
            if_neg fun h => hall h.2, commonPrefixLength, take_agreeing]
          rfl

/-- What is sent says how many characters became chords. -/
theorem length_frames (dart : Dart) (paneId : Text) (pieces : List Piece) :
    (pieces.filterMap (Piece.frame dart paneId)).length = pieces.countP Piece.isChord := by
  induction pieces with
  | nil => rfl
  | cons piece pieces ih =>
    cases piece with
    | kept char =>
      rw [List.filterMap_cons_none rfl, ih, List.countP_cons_of_neg (by simp [Piece.isChord])]
    | chord char modifiers =>
      rw [List.filterMap_cons_some (f := Piece.frame dart paneId) rfl, List.length_cons, ih,
        List.countP_cons_of_pos rfl]

theorem countP_uses_le (modifier : ChordModifier) (pieces : List Piece) :
    pieces.countP (Piece.uses modifier) ≤ pieces.countP Piece.isChord := by
  refine List.countP_mono_left fun piece _ huses => ?_
  cases piece with
  | kept char => cases huses
  | chord char modifiers => rfl

theorem chord_of_isChord {piece : Piece} (h : piece.isChord = true) :
    ∃ char modifiers, piece = .chord char modifiers := by
  cases piece with
  | kept char => cases h
  | chord char modifiers => exact ⟨char, modifiers, rfl⟩

/-- The characters that became chords can be taken out of a text. -/
theorem wellFormed_text {u v : Units}
    (hwhole : ∀ char modifiers, Piece.chord char modifiers ∈ pieces → ∃ c, char = codeUnits [c])
    (hone : ∀ char modifiers, Piece.chord char modifiers ∈ pieces → char.length = 1)
    (h : WellFormed (u ++ pieces.flatMap Piece.char ++ v)) :
    WellFormed (u ++ pieces.flatMap Piece.text ++ v) := by
  induction pieces generalizing u with
  | nil => exact h
  | cons piece pieces ih =>
    have ih := fun {u} => @ih u (fun char ms hmem => hwhole char ms (List.mem_cons_of_mem _ hmem))
      fun char ms hmem => hone char ms (List.mem_cons_of_mem _ hmem)
    cases piece with
    | kept char =>
      have hnext : WellFormed (u ++ char ++ pieces.flatMap Piece.char ++ v) := by
        rw [List.append_assoc u]
        exact h
      have hrest := ih hnext
      rw [List.append_assoc u] at hrest
      exact hrest
    | chord char modifiers =>
      obtain ⟨unit, rfl⟩ := List.length_eq_one_iff.mp (hone char modifiers List.mem_cons_self)
      obtain ⟨c, hc⟩ := hwhole _ modifiers List.mem_cons_self
      obtain ⟨d, -, hd, -⟩ := char_of_codeUnits hc.symm
      have hvalid := char_lt d
      have hunit : ¬IsSurrogate unit := by
        unfold IsSurrogate
        omega
      have hsplit : WellFormed (u ++ unit :: (pieces.flatMap Piece.char ++ v)) := by
        rw [List.flatMap_cons, List.append_assoc] at h
        exact h
      have hrest := hsplit.erase hunit
      rw [← List.append_assoc] at hrest
      exact ih hrest

/-- Nothing is latched or typed, or each typed character is plain beside a lock, or the first of
one code unit is without one. -/
def Suitable (kb : Keyboard) (row : KeyRow) (before after : TextEditingValue) : Prop :=
  row.chordLatch.latched = [] ∨ insertedRun before.text after.text = [] ∨
    ((∃ modifier, row.chordLatch.stateOf modifier = .locked) ∧
      ∀ char ∈ kb.characters (insertedRun before.text after.text), Plain kb.toDart char) ∨
    ((∀ modifier, row.chordLatch.stateOf modifier ≠ .locked) ∧
      ∃ char, (kb.characters (insertedRun before.text after.text)).find?
        (fun char => char.length = 1) = some char ∧ Plain kb.toDart char)

theorem Plain.length {dart : Dart} (h : Plain dart char) : char.length = 1 := by
  obtain ⟨c, rfl, hlt, -⟩ := h
  rw [codeUnits_single hlt, List.length_singleton]

/-- The characters that become chords in a suitable edit. -/
theorem plain_of_suitable (h : Suitable kb row before after)
    (hmem : Piece.chord char modifiers ∈ piecesOf kb row before after) : Plain kb.toDart char := by
  obtain hnone | hrun | ⟨-, hall⟩ | ⟨hfree, first, hfirst, hplain⟩ := h
  · exact absurd hmem (not_mem_split hnone)
  · rw [piecesOf, hrun, characters_nil] at hmem
    cases hmem
  · exact hall char (mem_split hmem).1
  · rw [Option.some.inj (hfirst.symm.trans (mem_split_held hfree hmem))] at hplain
    exact hplain

theorem suitable_of_isSplit (hlive : row.linkState = .live)
    (hcomposing : after.composing.isCollapsed = true)
    (h : IsSplit kb row before after (formatComposerEdit kb row before after)) :
    Suitable kb row before after := by
  obtain ⟨kept', removed', run', rest', pieces, h⟩ := h
  obtain ⟨kept, removed, rest, hspliced, hfollows⟩ :=
    formatComposerEdit_spec kb before after hlive hcomposing
  obtain ⟨-, rfl, -⟩ := hspliced.unique h.spliced
  by_cases hlatched : row.chordLatch.latched = []
  · exact .inl hlatched
  by_cases hrun : insertedRun before.text after.text = []
  · exact .inr (.inl hrun)
  have hcount : pieces.countP Piece.isChord =
      (piecesOf kb row before after).countP Piece.isChord := by
    rw [← length_frames kb.toDart row.paneId, ← length_frames kb.toDart row.paneId, ← h.sent,
      hfollows.sent]
  have hlength : pieces.length = (piecesOf kb row before after).length := by
    rw [piecesOf, split_length, ← h.inOrder, List.length_map]
  have hplain : ∀ char modifiers, .chord char modifiers ∈ piecesOf kb row before after →
      Plain kb.toDart char := by
    intro char modifiers hmem
    obtain ⟨-, hone, hchorded⟩ := mem_split hmem
    have hframe : ⟨row.paneId, [chordOf kb.toDart modifiers char]⟩ ∈
        (formatComposerEdit kb row before after).sent := by
      rw [hfollows.sent]
      exact List.mem_filterMap.mpr ⟨_, hmem, rfl⟩
    exact (accepted_iff kb hchorded hone).mp (h.accepted _ hframe _ List.mem_cons_self)
  by_cases hlock : ∃ modifier, row.chordLatch.stateOf modifier = .locked
  · obtain ⟨modifier, hlocked⟩ := hlock
    have huses := h.consumed hrun modifier
    rw [hlocked] at huses
    have hall : (piecesOf kb row before after).countP Piece.isChord =
        (piecesOf kb row before after).length := by
      refine Nat.le_antisymm List.countP_le_length ?_
      rw [← hcount, ← hlength]
      exact huses.ge.trans (countP_uses_le modifier pieces)
    refine .inr (.inr (.inl ⟨⟨modifier, hlocked⟩, fun char hchar => ?_⟩))
    rw [← split_char row.chordLatch (kb.characters _)] at hchar
    obtain ⟨piece, hmem, rfl⟩ := List.mem_map.mp hchar
    obtain ⟨char, modifiers, rfl⟩ := chord_of_isChord (List.countP_eq_length.mp hall piece hmem)
    exact hplain char modifiers hmem
  · have hfree : ∀ modifier, row.chordLatch.stateOf modifier ≠ .locked := not_exists.mp hlock
    obtain ⟨modifier, hmodifier⟩ := List.exists_mem_of_ne_nil _ hlatched
    have hheld : row.chordLatch.stateOf modifier = .held := by
      have hsome := (mem_latched).mp hmodifier
      cases hstate : row.chordLatch.stateOf modifier with
      | none => exact absurd hstate hsome
      | held => rfl
      | locked => exact absurd hstate (hfree modifier)
    have huses := h.consumed hrun modifier
    rw [hheld] at huses
    have hpos : 0 < (piecesOf kb row before after).countP Piece.isChord := by
      rw [← hcount]
      exact Nat.lt_of_lt_of_le (by rw [huses]; exact Nat.one_pos) (countP_uses_le modifier pieces)
    obtain ⟨piece, hmem, hchord⟩ := List.countP_pos_iff.mp hpos
    obtain ⟨char, modifiers, rfl⟩ := chord_of_isChord hchord
    exact .inr (.inr (.inr ⟨hfree, char, mem_split_held hfree hmem, hplain char modifiers hmem⟩))

/-- In a suitable edit a latched modifier finds its characters. -/
theorem chords_of_suitable (modifier : ChordModifier) (h : Suitable kb row before after)
    (hrun : insertedRun before.text after.text ≠ []) (hlatched : row.chordLatch.latched ≠ []) :
    0 < (piecesOf kb row before after).countP Piece.isChord ∧
      (row.chordLatch.stateOf modifier = .locked →
        (piecesOf kb row before after).countP Piece.isChord =
          (piecesOf kb row before after).length) := by
  obtain hnone | hnil | ⟨⟨locked, hlocked⟩, hall⟩ | ⟨hfree, char, hfirst, hplain⟩ := h
  · exact absurd hnone hlatched
  · exact absurd hnil hrun
  · have hchords := List.countP_eq_length.mpr
      (isChord_of_locked hlocked fun char hchar => (hall char hchar).length)
    have hsome : kb.characters (insertedRun before.text after.text) ≠ [] := by
      intro hnil
      rw [← kb.characters_flatten (insertedRun before.text after.text), hnil] at hrun
      exact hrun rfl
    refine ⟨?_, fun _ => hchords⟩
    rw [piecesOf, hchords, split_length]
    exact List.length_pos_of_ne_nil hsome
  · exact ⟨exists_chord hlatched (List.mem_of_find?_eq_some hfirst) hplain.length,
      fun hlock => absurd hlock (hfree modifier)⟩

theorem released_of_suitable (h : Suitable kb row before after)
    (hrun : insertedRun before.text after.text ≠ []) (modifier : ChordModifier) :
    (piecesOf kb row before after).countP (Piece.uses modifier) =
      (row.chordLatch.stateOf modifier).share (piecesOf kb row before after).length ∧
    (left row.chordLatch (piecesOf kb row before after)).stateOf modifier =
      (row.chordLatch.stateOf modifier).spent := by
  have huses := countP_uses row.chordLatch
    (kb.characters (insertedRun before.text after.text)) modifier
  rw [← piecesOf] at huses
  by_cases hlatched : row.chordLatch.latched = []
  · have hnone := (not_latched).mp hlatched modifier
    rw [hnone] at huses ⊢
    refine ⟨huses.trans (Nat.zero_min _), ?_⟩
    unfold left
    split
    · rw [consume_stateOf, hnone]
    · exact hnone
  · obtain ⟨hpos, hlocked⟩ := chords_of_suitable modifier h hrun hlatched
    constructor
    · rw [huses]
      cases hstate : row.chordLatch.stateOf modifier with
      | none => exact Nat.zero_min _
      | held => exact Nat.min_eq_left hpos
      | locked =>
        rw [hlocked hstate]
        exact Nat.min_self _
    · obtain ⟨piece, hmem, hchord⟩ := List.countP_pos_iff.mp hpos
      rw [left, if_pos (List.any_eq_true.mpr ⟨piece, hmem, hchord⟩), consume_stateOf]

theorem isSplit_of_suitable (hlive : row.linkState = .live)
    (hcomposing : after.composing.isCollapsed = true) (h : Suitable kb row before after) :
    IsSplit kb row before after (formatComposerEdit kb row before after) := by
  obtain ⟨kept, removed, rest, hspliced, hfollows⟩ :=
    formatComposerEdit_spec kb before after hlive hcomposing
  have hwhole : ∀ char modifiers, .chord char modifiers ∈ piecesOf kb row before after →
      ∃ c, char = codeUnits [c] := by
    intro char modifiers hmem
    obtain ⟨c, hc, -⟩ := plain_of_suitable h hmem
    exact ⟨c, hc⟩
  refine ⟨kept, removed, _, rest, piecesOf kb row before after, hspliced, split_char _ _, hwhole,
    hfollows.sent, hfollows.text, ?_, fun hrun modifier => (released_of_suitable h hrun modifier).1,
    fun hrun modifier => ?_, ?_⟩
  · intro hbefore hafter
    rw [hfollows.text]
    split
    · exact hbefore
    · refine wellFormed_text hwhole (fun char ms hmem => (plain_of_suitable h hmem).length) ?_
      rw [List.flatMap_def, piecesOf, split_char, kb.characters_flatten, ← hspliced.after]
      exact hafter
  · rw [hfollows.latch]
    exact (released_of_suitable h hrun modifier).2
  · intro frame hframe chord hchord
    rw [hfollows.sent] at hframe
    obtain ⟨piece, hmem, hpiece⟩ := List.mem_filterMap.mp hframe
    cases piece with
    | kept char => cases hpiece
    | chord char modifiers =>
      cases hpiece
      obtain ⟨-, hone, hchorded⟩ := mem_split hmem
      rw [List.mem_singleton.mp hchord]
      exact (accepted_iff kb hchorded hone).mpr (plain_of_suitable h hmem)

theorem isSplit_iff (kb : Keyboard) (row : KeyRow) (before after : TextEditingValue)
    (hlive : row.linkState = .live) (hcomposing : after.composing.isCollapsed = true) :
    IsSplit kb row before after (formatComposerEdit kb row before after) ↔
      Suitable kb row before after :=
  ⟨suitable_of_isSplit hlive hcomposing, isSplit_of_suitable hlive hcomposing⟩

/-- A keyboard for text without clusters or other letter case. -/
def plainKeyboard : Keyboard where
  toDart := InputAgreement.plainDart
  characters text := text.map fun unit => [unit]
  characters_flatten text := by
    rw [← List.flatMap_def]
    exact List.flatMap_singleton' text
  characters_ne_nil text h := by
    obtain ⟨unit, -, hnil⟩ := List.mem_map.mp h
    cases hnil
  toLowerCase_plus _ hc h := hc (List.mem_singleton.mp h).symm
  toLowerCase_named c := single_not_named c.toLower

def lettersRow (ctrl : ChordLatchState) : KeyRow :=
  ⟨"p1".toList, .live, ⟨fun | .ctrl => ctrl | .alt => .none⟩⟩

def composerText (text : Text) : TextEditingValue :=
  ⟨codeUnits text, .collapsed text.length, .empty⟩

theorem isSplit_iff_letters :
    IsSplit plainKeyboard (lettersRow .locked) (composerText "ls".toList)
      (composerText "labs".toList)
      (formatComposerEdit plainKeyboard (lettersRow .locked) (composerText "ls".toList)
        (composerText "labs".toList)) := by
  have hchars : plainKeyboard.characters
      (insertedRun (composerText "ls".toList).text (composerText "labs".toList).text) =
        [codeUnits ['a'], codeUnits ['b']] := by
    decide
  refine (isSplit_iff plainKeyboard (lettersRow .locked) (composerText "ls".toList)
    (composerText "labs".toList) rfl rfl).mpr (.inr (.inr (.inl ⟨⟨.ctrl, rfl⟩, ?_⟩)))
  rw [hchars]
  exact List.forall_mem_cons.mpr ⟨⟨'a', rfl, by decide, by decide, rfl⟩,
    List.forall_mem_singleton.mpr ⟨'b', rfl, by decide, by decide, rfl⟩⟩

/-- A plus sign after a tap on ctrl goes out as `ctrl++`, which the Host refuses. -/
theorem plus_chord_refused :
    (lettersRow .held).linkState = .live ∧
    (composerText "+".toList).composing.isCollapsed = true ∧
    ¬IsSplit plainKeyboard (lettersRow .held) (composerText [])
      (composerText "+".toList)
      (formatComposerEdit plainKeyboard (lettersRow .held) (composerText [])
        (composerText "+".toList)) := by
  refine ⟨rfl, rfl, ?_⟩
  rintro ⟨kept, removed, run, rest, pieces, h⟩
  have hsent : (formatComposerEdit plainKeyboard (lettersRow .held) (composerText [])
      (composerText "+".toList)).sent = [⟨"p1".toList, [codeUnits "ctrl++".toList]⟩] := by
    decide
  obtain ⟨key, hkey, hok⟩ := h.accepted _ (hsent ▸ List.mem_cons_self) _ List.mem_cons_self
  rw [codeUnits_injective hkey] at hok
  exact absurd hok (by decide)

end HerdrMobile.App.Chords
