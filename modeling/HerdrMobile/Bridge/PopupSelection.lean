import HerdrMobile.Bridge.PopupQuestions

/-!
# The selected phone

The selection stays in the list through every answer of the bridge. The table counts as visible
once its header fits, and then the selected row may still have no place.
-/
namespace HerdrMobile.Bridge.PopupSelection

open Lib.Run Bridge.Control Bridge.Popup Bridge.PopupSteps
open Bridge.PopupQuestions (plain pixel onePhone)

set_option autoImplicit false

variable {X : Terminal} {app app' : App} {e : Event} {es : List Event}
  {start now width height : Nat} {key : KeyCode} {answers : Answers}

/-- The selection is a row, unless there is none. -/
def Bounded (app : App) : Prop := 0 < app.devices.length → app.selected < app.devices.length

theorem Bounded.congr (hb : Bounded app) (hstatus : app'.status = app.status)
    (hselected : app'.selected = app.selected) : Bounded app' := by
  unfold Bounded App.devices
  rw [hstatus, hselected]
  exact hb

theorem Bounded.same (hb : Bounded app) (h : Same app app') : Bounded app' :=
  hb.congr h.status h.selected

theorem bounded_clampSelection (app : App) : Bounded app.clampSelection := by
  unfold App.clampSelection
  split
  · next h =>
    intro hpos
    exact absurd h (Nat.ne_of_gt hpos)
  · next h =>
    split
    · exact fun hpos => Nat.sub_lt hpos Nat.one_pos
    · next hlt => exact fun _ => Nat.lt_of_not_le hlt

theorem bounded_change (hb : Bounded app) (h : Change app app') : Bounded app' := by
  cases h with
  | notice | asked | loading => exact hb.congr rfl rfl
  | down => exact fun h => nomatch h
  | fetched => exact bounded_clampSelection _
  | moved delta =>
    unfold App.moveSelection
    split
    · exact hb
    · intro hpos
      change 0 < app.devices.length at hpos
      show (max 0 (min (app.selected + delta) (app.devices.length - 1 : Int))).toNat <
        app.devices.length
      omega
  | hidden =>
    unfold Bounded App.devices at hb ⊢
    dsimp only
    cases hstatus : app.status with
    | none => exact fun h => nomatch h
    | some status =>
      rw [hstatus] at hb
      exact hb

theorem bounded_changes (hb : Bounded app) (h : Changes app app') : Bounded app' := by
  induction h with
  | refl => exact hb
  | tail _ h ih => exact bounded_change ih h

theorem bounded_run (hrun : run (step X) (.new start) es = some app) : Bounded app := by
  induction es using List.reverseRecOn generalizing app with
  | nil =>
    cases hrun
    exact fun h => nomatch h
  | append_singleton init e ih =>
    obtain ⟨prev, hinit, hstep⟩ := run_snoc_inv hrun
    have hb := ih hinit
    cases e with
    | draw width height now =>
      cases hstep
      exact hb.same (same_draw X prev width height now)
    | poll answer now =>
      cases hstep
      exact bounded_changes hb (changes_refreshAt answer)
    | key key now answers =>
      cases hstep
      exact bounded_changes hb changes_handleKey

/-- The window stays in the table, is as long as the rows allow and has the selection in it. -/
theorem visibleWindow_spec {total visible selected : Nat} (htotal : 0 < total)
    (hselected : selected < total) (hvisible : 0 < visible) :
    let window := visibleWindow total visible selected
    window.1 ≤ selected ∧ selected < window.2 ∧ window.2 ≤ total ∧
      window.2 - window.1 = min visible total := by
  have hpos : ¬(total = 0 ∨ visible = 0) := by omega
  unfold visibleWindow
  rw [if_neg hpos]
  dsimp only
  omega

/-- The drawn rows, when the table is on. -/
def rowsOf (app : App) (link : LinkStatus) (visible : Nat) : List (DeviceRow × RowState × Bool) :=
  let window := visibleWindow app.devices.length visible app.selected
  ((app.devices.zipIdx.drop window.1).take (window.2 - window.1)).map fun (device, index) =>
    (device, RowState.compute link device.connected, index == app.selected)

theorem length_rowsOf (link : LinkStatus) (visible : Nat) (hb : Bounded app)
    (hdevices : 0 < app.devices.length) :
    (rowsOf app link visible).length = min visible app.devices.length := by
  unfold rowsOf
  rcases Nat.eq_zero_or_pos visible with rfl | hvisible
  · simp [visibleWindow]
  · obtain ⟨hstart, hend, hin, hlen⟩ := visibleWindow_spec hdevices (hb hdevices) hvisible
    simp only [List.length_map, List.length_take, List.length_drop, List.length_zipIdx]
    omega

/-- The selected row is drawn when there is a row for it. -/
theorem selected_rowsOf (link : LinkStatus) {visible : Nat} (hb : Bounded app)
    (hdevices : 0 < app.devices.length) (hvisible : 0 < visible) :
    ∃ device, app.selectedDevice = some device ∧
      (device, RowState.compute link device.connected, true) ∈ rowsOf app link visible := by
  obtain ⟨hstart, hend, hin, -⟩ := visibleWindow_spec hdevices (hb hdevices) hvisible
  have hsel := hb hdevices
  refine ⟨app.devices[app.selected], List.getElem?_eq_getElem hsel, ?_⟩
  unfold rowsOf
  refine List.mem_map.mpr ⟨(app.devices[app.selected], app.selected), ?_, by simp⟩
  generalize hwindow : visibleWindow app.devices.length visible app.selected = window at *
  refine List.mem_iff_getElem?.mpr ⟨app.selected - window.1, ?_⟩
  rw [List.getElem?_take_of_lt (by omega), List.getElem?_drop,
    Nat.add_sub_cancel' hstart, List.getElem?_zipIdx, List.getElem?_eq_getElem hsel]
  simp

theorem table_fitRegions {need : Regions → Nat} {rows : Nat} {r : Regions}
    (h : (fitRegions need rows r).table = true) : r.table = true := by
  unfold fitRegions at h
  dsimp only at h
  split at h
  · exact h
  · split at h
    · exact h
    · split at h
      · exact h
      · cases h

theorem devices_of_table {view : Option PairingView}
    (h : (app.regions view width height).table = true) : 0 < app.devices.length := by
  have htable := table_fitRegions h
  rw [Bool.and_eq_true, Bool.not_eq_true', List.isEmpty_eq_false_iff] at htable
  exact List.length_pos_of_ne_nil htable.1

theorem visible_markNoticeShown (app : App) :
    app.markNoticeShown.tableVisible = app.tableVisible := by
  unfold App.markNoticeShown
  split <;> rfl

/-- What a normal screen shows, in terms of the pane that it leaves. -/
theorem normal_draw {after : App} {view : Normal}
    (hdraw : app.draw X width height now = (after, .normal view)) :
    ∃ noted link, Same noted after ∧ view = noted.normalScreen X link width height now ∧
      after.tableVisible = view.regions.table := by
  have hdrawn := drawn X app width height now
  rw [hdraw] at hdrawn
  cases hdrawn with
  | normal status hnone hstatus =>
    refine ⟨app.clearNotice.noteExpiry X now, status.link, ?_, rfl, visible_markNoticeShown _⟩
    exact (same_visible _ _).trans (same_markNoticeShown _)

/-- After a draw with the table, `d` asks about the selected phone. Its row is on the screen exactly
when a row is left between the regions above and below. -/
theorem selection_drawn (X : Terminal) (start : Nat) (es : List Event) (app : App)
    (hrun : run (step X) (.new start) es = some app) (width height now : Nat) (after : App)
    (view : Normal) (hdraw : app.draw X width height now = (after, .normal view))
    (htable : after.tableVisible = true) :
    view.rows.length = min view.tableRows after.devices.length ∧
      ∃ device, after.asks (.char 'd') = some (.removeOne device.deviceId device.deviceName) ∧
        after.selectedDevice = some device ∧
          ((∃ state, (device, state, true) ∈ view.rows) ↔ 0 < view.tableRows) := by
  have hb : Bounded after := by
    have hsame := same_draw X app width height now
    rw [hdraw] at hsame
    exact (bounded_run hrun).same hsame
  obtain ⟨noted, link, hsame, rfl, hvisible⟩ := normal_draw hdraw
  rw [hvisible] at htable
  have hdevices : after.devices = noted.devices := by
    unfold App.devices
    rw [hsame.status]
  have hrows : (noted.normalScreen X link width height now).rows =
      rowsOf after link (noted.normalScreen X link width height now).tableRows := by
    unfold rowsOf
    rw [hdevices, hsame.selected]
    exact if_pos htable
  have hsome : 0 < after.devices.length := by
    rw [hdevices]
    exact devices_of_table htable
  have hlength := length_rowsOf link (noted.normalScreen X link width height now).tableRows hb hsome
  have hsel : after.selected < after.devices.length := hb hsome
  have hselected : after.selectedDevice = some after.devices[after.selected] :=
    List.getElem?_eq_getElem hsel
  rw [hrows]
  refine ⟨hlength, _, ?_, hselected, ?_, fun hpos => ?_⟩
  · unfold App.asks
    rw [if_pos (hvisible.trans htable), hselected]
    rfl
  · rintro ⟨state, hmem⟩
    have hpos := List.length_pos_of_mem hmem
    omega
  · obtain ⟨device, hdevice, hmem⟩ := selected_rowsOf link hb hsome hpos
    rw [hselected] at hdevice
    cases hdevice
    exact ⟨_, hmem⟩

/-- Ten rows are enough for every region and leave none for the phones. -/
theorem selection_drawn_unseen :
    ∃ app after view, run (step plain) (.new 0) [.poll (.ok onePhone) 0] = some app ∧
      app.draw plain 72 10 0 = (after, .normal view) ∧ view.tableRows = 0 ∧
        after.asks (.char 'd') = some (.removeOne pixel.deviceId pixel.deviceName) ∧
          ¬∃ state, (pixel, state, true) ∈ view.rows := by
  refine ⟨_, _, _, rfl, rfl, rfl, rfl, ?_⟩
  obtain ⟨-, device, -, hdevice, hseen⟩ := selection_drawn plain 0 [.poll (.ok onePhone) 0] _ rfl
    72 10 0 _ _ rfl rfl
  cases hdevice
  rw [hseen]
  exact Nat.not_lt_zero 0

end HerdrMobile.Bridge.PopupSelection
