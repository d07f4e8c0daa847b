import HerdrMobile.App.Link

/-!
# What is on its way to the Host

The requests of a composer in the order of the channel, and what they come to at the
Host: from a line and a held submit on, every Enter meets the line of its own submit,
whenever a held one is released and whether a deferred one is held or goes out.
-/
namespace HerdrMobile.App.Queue

open HerdrMobile.Proto.Messages HerdrMobile.Host.Coalesce
open HerdrMobile.App.Composer HerdrMobile.App.Link

set_option autoImplicit false

inductive Frame where
  | watch
  | line (text : Text) (tag : Tag)
  | enter (tag : Tag) (whenIdle : Bool)

def Frame.request (paneId : PaneId) : Frame → BridgeRequest Tag
  | .watch => .watchPane paneId none
  | .line text tag => .sendInput { paneId := paneId, line := some text } (some tag)
  | .enter tag whenIdle => .sendInput (Device.enterRequest paneId whenIdle) (some tag)

def Frame.text? : Frame → Option Text
  | .line text _ => some text
  | _ => none

variable {line pressed text : Text} {held : Option Text} {frames tail run : List Frame} {tag : Tag}
  {whenIdle : Bool}

theorem lineOf_request (paneId : PaneId) (frame : Frame) :
    lineOf (frame.request paneId) = frame.text? := by
  cases frame with
  | watch => rfl
  | line text tag => rfl
  | enter tag whenIdle => rfl

/-- The held submit, if there is one, has its own line. -/
def Owns (line : Text) (held : Option Text) : Prop := ∀ pressed ∈ held, pressed = line

/-- Every Enter of the frames, and the held one, meets its own line. No line arrives
while a submit is held, so one that arrives has seen it released. -/
def Safe : Text → Option Text → List Frame → Prop
  | line, held, [] => Owns line held
  | line, held, .watch :: frames => Safe line held frames
  | line, held, .line text _ :: frames => Owns line held ∧ Safe text none frames
  | line, held, .enter tag whenIdle :: frames =>
    Owns line held ∧ tag.pressed = line ∧ (held.isSome = true → line = []) ∧ Safe [] none frames ∧
      (whenIdle = true → Safe line (some tag.pressed) frames)

theorem Safe.owns (h : Safe line held frames) : Owns line held := by
  induction frames with
  | nil => exact h
  | cons frame frames ih =>
    cases frame with
    | watch => exact ih h
    | line text tag => exact h.1
    | enter tag whenIdle => exact h.1

theorem owns_none (line : Text) : Owns line none := fun _ hp => absurd hp (by simp)

/-- The held submit may be released before anything else is served. -/
theorem Safe.release (h : Safe line (some pressed) frames) : Safe [] none frames := by
  induction frames generalizing line with
  | nil => exact owns_none []
  | cons frame frames ih =>
    cases frame with
    | watch => exact ih h
    | line text tag => exact ⟨owns_none [], h.2⟩
    | enter tag whenIdle =>
      obtain ⟨-, hpressed, hempty, hout, hheld⟩ := h
      have hline : line = [] := hempty rfl
      rw [hline] at hpressed hheld
      exact ⟨owns_none [], hpressed, fun _ => rfl, hout, hheld⟩

theorem Safe.append_line (h : Safe line held frames) (htail : Safe text none tail) :
    Safe line held (frames ++ .line text tag :: tail) := by
  induction frames generalizing line held with
  | nil => exact ⟨h, htail⟩
  | cons frame frames ih =>
    cases frame with
    | watch => exact ih h
    | line text' tag' => exact ⟨h.1, ih h.2⟩
    | enter tag' whenIdle =>
      obtain ⟨howns, hpressed, hempty, hout, hheld⟩ := h
      exact ⟨howns, hpressed, hempty, ih hout, fun hw => ih (hheld hw)⟩

/-- The line after the lines of the frames. -/
def lastLine (line : Text) (frames : List Frame) : Text :=
  (frames.filterMap Frame.text?).getLast?.getD line

theorem lastLine_line : lastLine line (.line text tag :: frames) = lastLine text frames := by
  unfold lastLine
  simp [Frame.text?, List.getLast?_cons]

/-- Lines that are served leave the last one. -/
theorem Safe.lines (h : Safe text none (run ++ frames))
    (hrun : ∀ frame ∈ run, ∃ text tag, frame = .line text tag) :
    Safe (lastLine text run) none frames := by
  induction run generalizing text with
  | nil => exact h
  | cons frame run ih =>
    obtain ⟨text', tag, rfl⟩ := hrun frame List.mem_cons_self
    rw [lastLine_line]
    exact ih h.2 fun f hf => hrun f (List.mem_cons_of_mem _ hf)

theorem lastLine_empty (h : lastLine line frames = []) : lastLine [] frames = [] := by
  unfold lastLine at h ⊢
  cases hl : (frames.filterMap Frame.text?).getLast? with
  | none => rfl
  | some text => simpa [hl] using h

/-- An Enter after frames that leave an empty line meets an empty line. -/
theorem Safe.append_enter (h : Safe line held frames) (hlast : lastLine line frames = [])
    (hpressed : tag.pressed = []) : Safe line held (frames ++ [.enter tag whenIdle]) := by
  induction frames generalizing line held with
  | nil =>
    obtain rfl : line = [] := hlast
    refine ⟨h, hpressed, fun _ => rfl, owns_none [], fun _ => ?_⟩
    intro q hq
    rw [← Option.some.inj hq, hpressed]
  | cons frame frames ih =>
    cases frame with
    | watch => exact ih h hlast
    | line text tag' => exact ⟨h.1, ih h.2 (lastLine_line ▸ hlast)⟩
    | enter tag' whenIdle' =>
      obtain ⟨howns, hpressed', hempty, hout, hheld⟩ := h
      have hrest : lastLine line frames = [] := hlast
      exact ⟨howns, hpressed', hempty, ih hout (lastLine_empty hrest), fun hw => ih (hheld hw) hrest⟩

/-- An Enter put on the channel now would meet this line. -/
def Lands (text line : Text) (held : Option Text) (frames : List Frame) : Prop :=
  Safe line held (frames ++ [.enter ⟨0, text⟩ false])

theorem Lands.enter (h : Lands pressed line held frames) (hpressed : tag.pressed = pressed) :
    Safe line held (frames ++ [.enter tag whenIdle]) := by
  unfold Lands at h
  induction frames generalizing line held with
  | nil =>
    obtain ⟨howns, hline, hempty, -, -⟩ := h
    refine ⟨howns, hpressed.trans hline, hempty, owns_none [], fun _ => ?_⟩
    intro q hq
    rw [← Option.some.inj hq, hpressed]
    exact hline
  | cons frame frames ih =>
    cases frame with
    | watch => exact ih h
    | line text tag' => exact ⟨h.1, ih h.2⟩
    | enter tag' whenIdle' =>
      obtain ⟨howns, hpressed', hempty, hout, hheld⟩ := h
      exact ⟨howns, hpressed', hempty, ih hout, fun hw => ih (hheld hw)⟩

theorem Safe.lands_line (h : Safe line held frames) :
    Lands text line held (frames ++ [.line text tag]) := by
  unfold Lands
  rw [List.append_assoc]
  exact h.append_line ⟨owns_none _, rfl, fun hn => absurd hn (by simp), owns_none _,
    fun hw => absurd hw (by simp)⟩

/-- Nothing is on its way: the line has landed. -/
theorem Lands.arrived (h : Lands text line held []) : text = line := h.2.1

end HerdrMobile.App.Queue
