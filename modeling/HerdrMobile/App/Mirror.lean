import HerdrMobile.Host.Input
import HerdrMobile.Lib.Run

/-!
# The composer follows accepted keys

Once the Host has accepted a control of the key panel, the Device makes of its composer line what
the Host has made of the line shadow. The Host lets Return end the line like Enter, the Device
does not.
-/
namespace HerdrMobile.App.Mirror

open HerdrMobile.Lib.Run HerdrMobile.Lib.Segment HerdrMobile.Proto.Messages
open HerdrMobile.Host.Keys HerdrMobile.Host.Herdr HerdrMobile.Host.Input

set_option autoImplicit false

/-- `String.toLowerCase`, a character at a time. The letter c is the lower case of nothing beyond
ASCII. -/
structure LowerCase where
  ofChar : Char → Text
  ascii : ∀ c, c.toNat < 128 → ofChar c = [c.toLower]
  foreign : ∀ c, 128 ≤ c.toNat → 'c' ∉ ofChar c

def LowerCase.ofText (lower : LowerCase) (text : Text) : Text := text.flatMap lower.ofChar

def navigationSequences : List Text :=
  ["\x1b[2~".toList, "\x1b[3~".toList, "\x1b[H".toList, "\x1b[F".toList, "\x1b[5~".toList,
    "\x1b[6~".toList]

section Device

variable (lower : LowerCase) (joins : Graphemes)

def applyKey (line key : Text) : Text :=
  let name := lower.ofText key
  if name = "enter".toList ∨ name = "ctrl+c".toList then []
  else if name = "backspace".toList then eraseLast joins line
  else line

/-- What becomes of the composer line when it holds no answer. -/
def applyAcceptedInput (input : SendInput) (line : Text) : Text :=
  let line :=
    match input.text with
    | some text => if text ∈ navigationSequences then line else line ++ text
    | none => line
  (input.keys.getD []).foldl (applyKey lower joins) line

/-- Only the answer page sends with `bypass_line`, and its sends do not mirror. -/
def mirrors (input : SendInput) : Bool := input.bypassLine != some true

/-- `_onAck` of an accepted control. -/
def onAccepted (input : SendInput) (line : Text) : Text :=
  if mirrors input then applyAcceptedInput lower joins input line else line

end Device

def isReturn (key : Text) : Bool := eqIgnoreAsciiCase key "Return".toList

/-- The keys that end the line on both sides. -/
def endsBoth (key : Text) : Bool :=
  eqIgnoreAsciiCase key "Enter".toList || eqIgnoreAsciiCase key "ctrl+c".toList

/-- The line once the text of the request is typed. -/
def typed (request : SendInput) (line : Text) : Text :=
  match request.text with
  | some text => if text ∈ rawSequences then line else line ++ text
  | none => line

/-- The line once the Backspace keys are pressed. -/
def erased (joins : Graphemes) (keys : List Text) (line : Text) : Text :=
  keys.foldl (fun line key => if isBackspace key then eraseLast joins line else line) line

/-- A Return comes with an Enter or a `ctrl+c`, or leaves nothing to end. -/
def Ends (joins : Graphemes) (request : SendInput) (line : Text) : Prop :=
  request.bypassLine = some true ∨
    ((request.keys.getD []).any isReturn = true →
      (request.keys.getD []).any endsBoth = true ∨
        erased joins (request.keys.getD []) (typed request line) = [])

section LetterCase

variable {lower : LowerCase} {key : Text}

theorem toLower_lt {c : Char} : c.toLower.toNat < 128 ↔ c.toNat < 128 := by
  have hshift : ('a'.val - 'A'.val).toNat = 32 := by decide
  have hlast : 'Z'.val.toNat = 90 := by decide
  unfold Char.toLower
  split
  · rename_i h
    have hle := h.2
    simp only [Char.toNat, UInt32.le_iff_toNat_le, UInt32.toNat_add] at *
    omega
  · exact Iff.rfl

def isAsciiText (text : Text) : Prop := ∀ c ∈ text, c.toNat < 128

theorem ofText_ascii (hkey : isAsciiText key) : lower.ofText key = toAsciiLowercase key := by
  unfold isAsciiText at hkey
  induction key with
  | nil => rfl
  | cons c key ih =>
    obtain ⟨hc, hrest⟩ := List.forall_mem_cons.mp hkey
    have htail := ih hrest
    rw [LowerCase.ofText, List.flatMap_cons, lower.ascii c hc, ← LowerCase.ofText, htail]
    rfl

theorem ascii_of_lowercase {name : Text} (hname : isAsciiText name)
    (heq : toAsciiLowercase key = name) : isAsciiText key := by
  intro c hc
  rw [← toLower_lt]
  apply hname
  rw [← heq]
  exact List.mem_map_of_mem hc

theorem isAsciiText_of_all {text : Text} (h : (text.all fun c => c.toNat < 128) = true) :
    isAsciiText text := by
  intro c hc
  simpa using List.all_eq_true.mp h c hc

theorem ascii_namedKeys : ∀ name ∈ namedKeys, isAsciiText name := by
  have h : (namedKeys.all fun name => name.all fun c => c.toNat < 128) = true := by decide
  intro name hname
  exact isAsciiText_of_all (List.all_eq_true.mp h name hname)

theorem ascii_modifiers : ∀ name ∈ permittedModifiers, isAsciiText name := by
  have h : (permittedModifiers.all fun name => name.all fun c => c.toNat < 128) = true := by decide
  intro name hname
  exact isAsciiText_of_all (List.all_eq_true.mp h name hname)

theorem ascii_functionKey {name : Text} (h : isFunctionKey name = true) : isAsciiText name := by
  unfold isFunctionKey at h
  split at h
  · rename_i rest
    simp only [Bool.and_eq_true, List.all_eq_true] at h
    intro c hc
    cases List.mem_cons.mp hc with
    | inl heq => exact heq ▸ (by decide)
    | inr hrest =>
      have hdigit := h.1.2 c hrest
      have hle : c.toNat ≤ 57 := by
        simp only [Char.isDigit, Bool.and_eq_true, decide_eq_true_eq] at hdigit
        exact hdigit.2
      omega
  · cases h

theorem intercalate_concat {α : Type} (sep : α) (parts : List (List α)) (last : List α)
    (hparts : parts ≠ []) :
    [sep].intercalate (parts ++ [last]) = [sep].intercalate parts ++ sep :: last := by
  induction parts with
  | nil => exact absurd rfl hparts
  | cons first rest ih =>
    by_cases hrest : rest = []
    · rw [hrest]
      simp [List.intercalate_cons_cons]
    · have hmore : rest ++ [last] ≠ [] := by simp
      rw [List.cons_append, List.intercalate_cons_of_ne_nil hmore, ih hrest,
        List.intercalate_cons_of_ne_nil hrest]
      simp

/-- A chord is its modifiers, a plus and its base. -/
theorem eq_of_splitChord {name : Text} {modifiers : List Text} {base : Text}
    (h : splitChord name = some (modifiers, base)) (hmodifiers : modifiers ≠ []) :
    name = ['+'].intercalate modifiers ++ '+' :: base := by
  unfold splitChord at h
  split at h
  · obtain ⟨last, hlast, hpair⟩ := Option.map_eq_some_iff.mp h
    cases hpair
    have hparts := List.dropLast_append_getLast? base hlast
    rw [← intercalate_concat _ _ _ hmodifiers, hparts, List.intercalate_splitOn]
  · cases h

/-- What `validateChord` lets through. -/
theorem of_validateChord {modifiers : List Text} {base raw : Text}
    (h : validateChord modifiers base raw = .ok ()) :
    modifiers ≠ [] ∧ (∀ m ∈ modifiers, m ∈ permittedModifiers) ∧
      (base.length = 1 ∨ base ∈ namedKeys) := by
  unfold validateChord at h
  split at h
  · cases h
  · rename_i hempty
    split at h
    · cases h
    · rename_i hforbidden
      split at h
      · cases h
      · split at h
        · rename_i hbase
          refine ⟨?_, ?_, hbase⟩
          · intro hnil
            exact hempty (by simp [hnil])
          · intro m hm
            by_contra hnot
            exact hforbidden (List.any_eq_true.mpr ⟨m, hm, by simp [hnot]⟩)
        · cases h

/-- An accepted name is ASCII, but for the base of a chord. -/
theorem ascii_or_chord (hkey : validateKey key = .ok ()) :
    isAsciiText key ∨ ∃ pre c, key = pre ++ ['+', c] ∧ 128 ≤ c.toNat := by
  unfold validateKey at hkey
  dsimp only at hkey
  split at hkey
  · rename_i modifiers base hsplit
    obtain ⟨hmodifiers, hpermitted, hbase⟩ := of_validateChord hkey
    have hname := eq_of_splitChord hsplit hmodifiers
    by_cases hforeign : ∃ c, base = [c] ∧ 128 ≤ c.toNat
    · obtain ⟨c, rfl, hc⟩ := hforeign
      right
      obtain ⟨pre, tail, rfl, -, htail⟩ := List.map_eq_append_iff.mp hname
      obtain ⟨plus, rest, rfl, hplus, hrest⟩ := List.map_eq_cons_iff.mp htail
      obtain ⟨d, nothing, rfl, hd, hnothing⟩ := List.map_eq_cons_iff.mp hrest
      cases List.map_eq_nil_iff.mp hnothing
      have hdforeign : 128 ≤ d.toNat := by
        by_contra hlt
        have := (toLower_lt).mpr (by omega : d.toNat < 128)
        rw [hd] at this
        omega
      exact ⟨pre, d, by rw [eq_plus_of_toLower hplus], hdforeign⟩
    · left
      refine ascii_of_lowercase ?_ hname
      intro x hx
      obtain hx | hx := List.mem_append.mp hx
      · obtain rfl | ⟨m, hm, hxm⟩ := Lib.Strings.mem_intercalate hx
        · decide
        · exact ascii_modifiers m (hpermitted m hm) x hxm
      · obtain rfl | hx := List.mem_cons.mp hx
        · decide
        · obtain hone | hnamed := hbase
          · obtain ⟨c, rfl⟩ := List.length_eq_one_iff.mp hone
            cases List.mem_singleton.mp hx
            by_contra hge
            exact hforeign ⟨x, rfl, by omega⟩
          · exact ascii_namedKeys base hnamed x hx
  · split at hkey
    · rename_i hplain
      left
      obtain hnamed | hfunction := hplain
      · exact ascii_of_lowercase (ascii_namedKeys _ hnamed) rfl
      · exact ascii_of_lowercase (ascii_functionKey hfunction) rfl
    · cases hkey

/-- For an accepted key the lower case of the Device and of the Host name the same keys. -/
theorem ofText_eq_iff (hkey : validateKey key = .ok ()) {name : Text} (hname : isAsciiText name)
    (hlast : '+' ∈ name → name.getLast? = some 'c') :
    lower.ofText key = name ↔ toAsciiLowercase key = name := by
  obtain hascii | ⟨pre, c, rfl, hc⟩ := ascii_or_chord hkey
  · rw [ofText_ascii hascii]
  · refine iff_of_false ?_ ?_
    · intro heq
      have hplus : lower.ofChar '+' = ['+'] := lower.ascii '+' (by decide)
      have hsplit : lower.ofText (pre ++ ['+', c]) =
          lower.ofText pre ++ '+' :: lower.ofChar c := by
        simp [LowerCase.ofText, hplus]
      rw [hsplit] at heq
      have hc' := hlast (heq ▸ by simp)
      rw [← heq, List.getLast?_append, List.getLast?_cons] at hc'
      have hend : 'c' ∈ '+' :: lower.ofChar c := by
        apply List.mem_of_getLast?
        simpa [List.getLast?_cons] using hc'
      cases List.mem_cons.mp hend with
      | inl hplus => exact absurd hplus (by decide)
      | inr hmem => exact lower.foreign c hc hmem
    · intro heq
      have hlt := ascii_of_lowercase hname heq c (by simp)
      omega

theorem applyKey_eq {joins : Graphemes} (hkey : validateKey key = .ok ()) (line : Text) :
    applyKey lower joins line key =
      if endsBoth key then [] else if isBackspace key then eraseLast joins line else line := by
  have henter : lower.ofText key = "enter".toList ↔ _ :=
    ofText_eq_iff hkey (isAsciiText_of_all (by decide)) (by decide)
  have hctrl : lower.ofText key = "ctrl+c".toList ↔ _ :=
    ofText_eq_iff hkey (isAsciiText_of_all (by decide)) (by decide)
  have hback : lower.ofText key = "backspace".toList ↔ _ :=
    ofText_eq_iff hkey (isAsciiText_of_all (by decide)) (by decide)
  have hends : endsBoth key = true ↔
      toAsciiLowercase key = "enter".toList ∨ toAsciiLowercase key = "ctrl+c".toList := by
    rw [endsBoth, Bool.or_eq_true]
    exact Iff.or beq_iff_eq beq_iff_eq
  have hbackspace : isBackspace key = true ↔ toAsciiLowercase key = "backspace".toList :=
    beq_iff_eq
  simp only [applyKey, henter, hctrl, hback, hends, hbackspace]

end LetterCase

section Host

variable {Hash Corr : Type} {joins : Graphemes} {herdr : HerdrCalls} {request : SendInput}
  {log log' : Log} {line : Text}

/-- What an accepted request makes of the line shadow of its pane. -/
def shadowed (joins : Graphemes) (request : SendInput) (line : Text) : Text :=
  if request.bypassLine = some true then line
  else shadowKeys joins (request.keys.getD []) (typed request line)

theorem forwardText_accepted {shadow : Option Text}
    (h : forwardText herdr request.paneId request.text (some line) log = (true, shadow, log')) :
    shadow = some (typed request line) := by
  unfold forwardText at h
  unfold typed
  cases ht : request.text with
  | none =>
    rw [ht] at h
    cases h
    rfl
  | some text =>
    rw [ht] at h
    dsimp only at h ⊢
    split at h
    · cases h
    · cases h
      split
      · rfl
      · rfl

theorem forwardInput_accepted {shadow : Option Text}
    (h : forwardInput joins herdr request (some line) log = (true, shadow, log')) :
    shadow = some (shadowKeys joins (request.keys.getD []) (typed request line)) := by
  unfold forwardInput at h
  split at h
  · cases h
  · rename_i typedShadow typedLog htext
    have htyped := forwardText_accepted htext
    cases hk : request.keys with
    | none =>
      rw [hk] at h
      cases h
      exact htyped
    | some keys =>
      rw [hk] at h
      dsimp only at h
      split at h
      · cases h
      · cases h
        rw [htyped]
        rfl

theorem transmit_accepted {m m' : Shared} {changed : Bool} (hline : request.line = none)
    (h : transmit joins herdr request m = (true, changed, m')) :
    m'.inputLines request.paneId = shadowed joins request (m.inputLines request.paneId) := by
  unfold transmit at h
  unfold shadowed
  by_cases hbypass : request.bypassLine = some true
  · rw [if_pos hbypass] at h ⊢
    have hkeep := congrArg (fun outcome => outcome.2.2) h
    dsimp only at hkeep
    rw [← hkeep]
  · rw [if_neg hbypass] at h ⊢
    rw [hline] at h
    dsimp only at h
    generalize hf : forwardInput joins herdr request (some (m.inputLines request.paneId)) m.log =
      outcome at h
    obtain ⟨ok, shadow, sent⟩ := outcome
    cases h
    rw [forwardInput_accepted hf]
    exact Function.update_self ..

theorem validKeys (h : validateSendInput request = .ok ()) (hline : request.line = none) :
    ∀ key ∈ request.keys.getD [], validateKey key = .ok () := by
  unfold validateSendInput at h
  rw [hline] at h
  intro key hkey
  split at h
  · cases h
  · split at h
    · cases h
    · split at h
      · rename_i hsome
        cases hsome
      · split at h
        · cases h
        · split at h
          · cases h
          · rename_i hnone
            have hfirst := List.findSome?_eq_none_iff.mp hnone key hkey
            split at hfirst
            · assumption
            · cases hfirst

theorem sendInput_accepted {now : Nat} {b b' : Bridge Hash Corr} {m m' : Shared}
    {ack : SendInputAck} (hline : request.line = none) (haccepted : ack.accepted = true)
    (h : sendInput joins herdr now request b m = (.ok ack, b', m')) :
    (∀ key ∈ request.keys.getD [], validateKey key = .ok ()) ∧
      m'.inputLines request.paneId = shadowed joins request (m.inputLines request.paneId) := by
  unfold sendInput at h
  split at h
  · cases h
  · split at h
    · cases h
    · rename_i hvalid
      dsimp only at h
      generalize ht : transmit joins herdr request m = outcome at h
      obtain ⟨accepted, changed, sent⟩ := outcome
      cases h
      cases haccepted
      exact ⟨validKeys hvalid hline, transmit_accepted hline ht⟩

end Host

section Agreement

variable {lower : LowerCase} {joins : Graphemes} {request : SendInput} {keys : List Text}
  {line : Text}

theorem navigation_iff (text : Text) : text ∈ navigationSequences ↔ text ∈ rawSequences := by
  have hsub : ∀ t ∈ navigationSequences, t ∈ rawSequences := by decide
  have hsup : ∀ t ∈ rawSequences, t ∈ navigationSequences := by decide
  exact ⟨hsub text, hsup text⟩

theorem eraseLast_nil (joins : Graphemes) : eraseLast joins ([] : Text) = [] := by
  have h := eraseLast_iterate joins 1 ([] : Text)
  simpa using h

/-- Every key of the panel only shortens the line. -/
theorem applyKeys_nil (hkeys : ∀ key ∈ keys, validateKey key = .ok ()) :
    keys.foldl (applyKey lower joins) [] = [] := by
  induction keys with
  | nil => rfl
  | cons key keys ih =>
    obtain ⟨hkey, hrest⟩ := List.forall_mem_cons.mp hkeys
    rw [List.foldl_cons, applyKey_eq hkey, eraseLast_nil]
    simp only [ite_self]
    exact ih hrest

theorem applyKeys_eq (hkeys : ∀ key ∈ keys, validateKey key = .ok ()) (line : Text) :
    keys.foldl (applyKey lower joins) line =
      if keys.any endsBoth = true then [] else erased joins keys line := by
  induction keys generalizing line with
  | nil => rfl
  | cons key keys ih =>
    obtain ⟨hkey, hrest⟩ := List.forall_mem_cons.mp hkeys
    rw [List.foldl_cons, applyKey_eq hkey, List.any_cons]
    by_cases hends : endsBoth key = true
    · rw [if_pos hends, applyKeys_nil hrest, hends, Bool.true_or, if_pos rfl]
    · rw [if_neg hends, ih hrest, Bool.eq_false_of_not_eq_true hends, Bool.false_or]
      rfl

theorem any_endsLine : keys.any endsLine = (keys.any endsBoth || keys.any isReturn) := by
  induction keys with
  | nil => rfl
  | cons key keys ih =>
    rw [List.any_cons, List.any_cons, List.any_cons, ih]
    unfold endsLine endsBoth isReturn
    cases eqIgnoreAsciiCase key "Enter".toList with
    | true => rfl
    | false =>
      cases eqIgnoreAsciiCase key "Return".toList with
      | true => simp
      | false => simp only [Bool.false_or, Bool.or_false, Bool.or_assoc]

theorem onAccepted_eq (hkeys : ∀ key ∈ request.keys.getD [], validateKey key = .ok ()) :
    onAccepted lower joins request line =
      if request.bypassLine = some true then line
      else if (request.keys.getD []).any endsBoth = true then []
      else erased joins (request.keys.getD []) (typed request line) := by
  have htyped : (match request.text with
      | some text => if text ∈ navigationSequences then line else line ++ text
      | none => line) = typed request line := by
    unfold typed
    simp only [navigation_iff]
  unfold onAccepted mirrors applyAcceptedInput
  rw [htyped, applyKeys_eq hkeys]
  by_cases hbypass : request.bypassLine = some true
  · rw [if_neg (by simp [hbypass]), if_pos hbypass]
  · rw [if_pos (by simp [hbypass]), if_neg hbypass]

/-- From one line, both sides come to one line exactly where Return ends nothing of its own. -/
theorem onAccepted_eq_shadowed_iff
    (hkeys : ∀ key ∈ request.keys.getD [], validateKey key = .ok ()) :
    onAccepted lower joins request line = shadowed joins request line ↔
      Ends joins request line := by
  rw [onAccepted_eq hkeys]
  unfold shadowed Ends
  by_cases hbypass : request.bypassLine = some true
  · rw [if_pos hbypass, if_pos hbypass]
    exact iff_of_true rfl (.inl hbypass)
  · rw [if_neg hbypass, if_neg hbypass, shadowKeys, any_endsLine]
    simp only [hbypass, false_or]
    by_cases hboth : (request.keys.getD []).any endsBoth = true
    · rw [if_pos hboth, hboth, Bool.true_or, if_pos rfl]
      exact iff_of_true rfl fun _ => .inl rfl
    · rw [if_neg hboth, Bool.eq_false_of_not_eq_true hboth, Bool.false_or]
      by_cases hreturn : (request.keys.getD []).any isReturn = true
      · rw [if_pos hreturn]
        simp [hreturn]
      · rw [if_neg hreturn]
        exact iff_of_true rfl fun h => absurd h hreturn

end Agreement

section Runs

variable {Hash Corr : Type} (lower : LowerCase) (joins : Graphemes) (herdr : HerdrCalls)
  (paneId : PaneId)

/-- The composer line of the Device for one pane, and what the sessions of the Host share. -/
structure Both where
  text : Text
  shared : Shared

/-- `accepted` is a request that a session, with its bridge as it is by then, accepts, and that
the Device is told of. `elsewhere` is whatever else the Host does that leaves the line of the
pane. -/
inductive Event (Hash Corr : Type) where
  | accepted (now : Nat) (request : SendInput) (bridge : Bridge Hash Corr)
  | elsewhere (shared : Shared)

def Both.step (s : Both) : Event Hash Corr → Option Both
  | .accepted now request bridge =>
    if request.paneId = paneId ∧ request.line = none then
      match sendInput joins herdr now request bridge s.shared with
      | (.ok ack, _, shared) =>
        if ack.accepted then some ⟨onAccepted lower joins request s.text, shared⟩ else none
      | (.error _, _, _) => none
    else none
  | .elsewhere shared =>
    if shared.inputLines paneId = s.shared.inputLines paneId then some ⟨s.text, shared⟩ else none

/-- The composer holds what the Host takes the line of the pane to be. -/
def Agree (s : Both) : Prop := s.text = s.shared.inputLines paneId

/-- The event ends no line by a Return that the Device lets stand. -/
def Ending (s : Both) : Event Hash Corr → Prop
  | .accepted _ request _ => Ends joins request (s.shared.inputLines paneId)
  | .elsewhere _ => True

variable {lower joins herdr paneId} {s t : Both} {e : Event Hash Corr}

theorem agree_step (hs : s.step lower joins herdr paneId e = some t) (hagree : Agree paneId s) :
    Agree paneId t ↔ Ending joins paneId s e := by
  cases e with
  | elsewhere shared =>
    simp only [Both.step] at hs
    split at hs
    · rename_i hkeep
      cases hs
      exact iff_of_true (Eq.trans hagree hkeep.symm) trivial
    · cases hs
  | accepted now request bridge =>
    simp only [Both.step] at hs
    split at hs
    · rename_i hours
      obtain ⟨rfl, hline⟩ := hours
      generalize hsend : sendInput joins herdr now request bridge s.shared = outcome at hs
      obtain ⟨result, bridge', shared⟩ := outcome
      cases result with
      | error e => cases hs
      | ok ack =>
        dsimp only at hs
        split at hs
        · rename_i haccepted
          cases hs
          obtain ⟨hkeys, hshadow⟩ := sendInput_accepted hline haccepted hsend
          have hiff := (@onAccepted_eq_shadowed_iff lower joins _
            (s.shared.inputLines request.paneId)) hkeys
          show onAccepted lower joins request s.text = shared.inputLines request.paneId ↔ _
          rw [hshadow, show s.text = _ from hagree]
          exact hiff
        · cases hs
    · cases hs

theorem mirror_agrees_iff (es : List (Event Hash Corr)) (s₀ : Both) (h₀ : Agree paneId s₀) :
    (∀ s, Visits (Both.step lower joins herdr paneId) s₀ es s → Agree paneId s) ↔
      ∀ s e t, Occurs (Both.step lower joins herdr paneId) s₀ es s e t →
        Ending joins paneId s e := by
  constructor
  · intro hall s e t hocc
    exact (agree_step hocc.step_eq (hall s hocc.before)).mp (hall t hocc.after)
  · intro hends s hvisits
    refine visits_invariant (Agree paneId) h₀ (fun hagree hocc => ?_) hvisits
    exact (agree_step hocc.step_eq hagree).mpr (hends _ _ _ hocc)

def asciiLower : LowerCase where
  ofChar c := [c.toLower]
  ascii _ _ := rfl
  foreign c hc hmem := by
    have heq : 'c' = c.toLower := List.mem_singleton.mp hmem
    have hlt : c.toLower.toNat < 128 := heq ▸ (by decide)
    have := (toLower_lt).mp hlt
    omega

/-- Every call succeeds. -/
def willing : HerdrCalls where
  send _ _ := true
  sessionSnapshot _ := .error .herdr
  paneLayout _ _ := none
  paneReadVisible _ _ := none

def watching : Bridge Unit Unit where
  config := ⟨150, 1000, [50], 10⟩
  watched := some ⟨"p".toList, 1, 24, 80, ()⟩
  scheduler := none
  pendingInput := none
  sessionActive := none
  inputReplies := []

/-- Both sides hold `ls`. -/
def listing : Both := ⟨"ls".toList, ⟨fun _ => "ls".toList, []⟩⟩

def pressed (key : Text) : Event Unit Unit :=
  .accepted 0 { paneId := "p".toList, keys := some [key] } watching

theorem mirror_agrees_backspace :
    Agree "p".toList listing ∧
      ∀ s, Visits (Both.step asciiLower (fun _ _ => false) willing "p".toList) listing
        [pressed "BACKSPACE".toList] s → Agree "p".toList s := by
  refine ⟨rfl, ?_⟩
  apply (mirror_agrees_iff [pressed "BACKSPACE".toList] listing rfl).mpr
  rintro s e t ⟨pre, post, hes, -, -⟩
  have hmem : e ∈ [pressed "BACKSPACE".toList] := hes ▸ by simp
  cases List.mem_singleton.mp hmem
  have hnever : ["BACKSPACE".toList].any isReturn = false := by decide
  exact .inr fun hreturn => absurd (hnever.symm.trans hreturn) Bool.false_ne_true

/-- The Host ends the line at an accepted Return, and the composer keeps it. -/
theorem return_diverges :
    ¬∀ (lower : LowerCase) (joins : Graphemes) (herdr : HerdrCalls) (paneId : PaneId)
      (es : List (Event Unit Unit)) (s₀ s : Both), Agree paneId s₀ →
      Visits (Both.step lower joins herdr paneId) s₀ es s → Agree paneId s := by
  intro hall
  have hlast : (run (Both.step asciiLower (fun _ _ => false) willing "p".toList) listing
      [pressed "Return".toList]).any (fun s =>
        decide (s.text ≠ s.shared.inputLines "p".toList)) = true := by decide
  obtain ⟨s, hs, hne⟩ := (Option.any_eq_true _ _).mp hlast
  exact of_decide_eq_true hne (hall _ _ _ _ _ listing s rfl (visits_end hs))

end Runs

end HerdrMobile.App.Mirror
