import HerdrMobile.App.Calls

/-!
# An Enter follows its line

The Enter of a composer submit goes out after the Host has accepted the line, in the same
session and for the same pane. The same holds of an Enter that takes over a held submit.
-/
namespace HerdrMobile.App.Enters

open HerdrMobile.Lib.Run HerdrMobile.Proto.Messages HerdrMobile.App.Replies
open HerdrMobile.App.Submits HerdrMobile.App.Settled HerdrMobile.App.Calls

set_option autoImplicit false

/-- The line of the call went out under this id in the session that goes on. -/
def SentLine (history : List Entry) (future : Nat) (corr : Corr) (purpose : Purpose) : Prop :=
  ∃ later earlier, history = later ++
    .issued future corr (Service.lineRequest purpose.paneId purpose.line) (some purpose) ::
      earlier ∧ .lost ∉ later

/-- The Host accepted the line of the call in the session that goes on. -/
def Accepted (history : List Entry) (purpose : Purpose) : Prop :=
  ∃ future corr ack later sent, history = later ++ .acknowledged corr ack :: sent ∧
    .lost ∉ later ∧ ack.accepted = true ∧ ack.paneId = purpose.paneId ∧
    SentLine sent future corr purpose

/-- What was accepted when a request of a composer call went out: nothing for the line, the
line for anything else. -/
def Follows (rest : List Entry) (purpose : Purpose) (input : SendInput) : Prop :=
  input = Service.lineRequest purpose.paneId purpose.line ∨ purpose.line = [] ∨
    (input.paneId = purpose.paneId ∧ Accepted rest purpose)

/-- Every Enter of a composer call follows its line. -/
def InOrder : List Entry → Prop
  | [] => True
  | .issued _ _ input (some purpose) :: rest => Follows rest purpose input ∧ InOrder rest
  | .handed f _ _ paneId :: rest =>
    (∀ c input purpose, .issued f c input (some purpose) ∈ rest → purpose.line ≠ [] →
      paneId = purpose.paneId ∧ Accepted rest purpose) ∧ InOrder rest
  | _ :: rest => InOrder rest

section History

variable {history rest : List Entry} {entry : Entry} {f : Nat} {corr : Corr} {purpose : Purpose}

theorem SentLine.cons (h : SentLine history f corr purpose) (hne : entry ≠ .lost) :
    SentLine (entry :: history) f corr purpose := by
  obtain ⟨later, earlier, rfl, hlost⟩ := h
  refine ⟨entry :: later, earlier, rfl, ?_⟩
  intro hm
  cases List.mem_cons.mp hm with
  | inl heq => exact hne heq.symm
  | inr hm => exact hlost hm

theorem Accepted.cons (h : Accepted history purpose) (hne : entry ≠ .lost) :
    Accepted (entry :: history) purpose := by
  obtain ⟨f, corr, ack, later, sent, rfl, hlost, hrest⟩ := h
  refine ⟨f, corr, ack, entry :: later, sent, rfl, ?_, hrest⟩
  intro hm
  cases List.mem_cons.mp hm with
  | inl heq => exact hne heq.symm
  | inr hm => exact hlost hm

theorem sentLine_issued (f : Nat) (corr : Corr) (purpose : Purpose) (history : List Entry) :
    SentLine (.issued f corr (Service.lineRequest purpose.paneId purpose.line) (some purpose) ::
      history) f corr purpose :=
  ⟨[], history, rfl, List.not_mem_nil⟩

/-- The acknowledgement of a line. -/
theorem SentLine.accepted (h : SentLine history f corr purpose) {ack : SendInputAck}
    (ha : ack.accepted = true) (hp : ack.paneId = purpose.paneId) :
    Accepted (.acknowledged corr ack :: history) purpose :=
  ⟨f, corr, ack, [], history, rfl, List.not_mem_nil, ha, hp, h⟩

end History

/-- What the service knows of a line while its call goes on. -/
structure Lines (s : Service) : Prop where
  inOrder : InOrder s.history
  issued : ∀ f c input purpose, .issued f c input purpose ∈ s.history → f < s.nextFuture
  waits : ∀ c f p, waiter s.history c = some (f, p) → ∀ c' input purpose,
    .issued f c' input (some purpose) ∈ s.history → purpose.line ≠ [] →
      p = purpose.paneId ∧ (SentLine s.history f c purpose ∨ Accepted s.history purpose)
  queued : ∀ c f p, lastQueued s.history = some c → waiter s.history c = some (f, p) →
    ∀ c' input purpose, .issued f c' input (some purpose) ∈ s.history → purpose.line ≠ [] →
      Accepted s.history purpose
  generations : ∀ call ∈ s.calls, call.generation ≤ s.connectionGeneration
  calls : ∀ call ∈ s.calls, ∀ f, call.stage = .line f →
    call.generation = s.connectionGeneration → call.line ≠ [] →
      ((∃ c input, .issued f c input (some call.purpose) ∈ s.history) ∨
        .completed f false ∈ s.history) ∧
      (.completed f true ∈ s.history → Accepted s.history call.purpose)

theorem lines_start : Lines Service.start where
  inOrder := trivial
  issued _ _ _ _ h := by cases h
  waits _ _ _ h := by cases h
  queued _ _ _ h := by cases h
  generations _ h := by cases h
  calls _ h := by cases h

/-- An entry about which nothing is to be shown in the history. -/
def Plain : Entry → Prop
  | .sent _ _ => True
  | .acknowledged _ _ => True
  | .completed _ _ => True
  | _ => False

theorem Plain.ne_lost {entry : Entry} (h : Plain entry) : entry ≠ .lost := by
  rintro rfl
  exact h

theorem inOrder_plain {entry : Entry} {history : List Entry} (h : Plain entry)
    (ho : InOrder history) : InOrder (entry :: history) := by
  cases entry with
  | sent c message => exact ho
  | acknowledged c ack => exact ho
  | completed f v => exact ho
  | issued f c input purpose => exact h.elim
  | handed f previous c p => exact h.elim
  | lost => exact h.elim

theorem issued_plain {entry : Entry} {history : List Entry} (h : Plain entry) {f : Nat}
    {c : Corr} {input : SendInput} {purpose : Option Purpose} :
    .issued f c input purpose ∈ entry :: history ↔ .issued f c input purpose ∈ history := by
  rw [List.mem_cons]
  refine ⟨fun hm => hm.resolve_left ?_, .inr⟩
  rintro rfl
  exact h

section Lines

variable {s t : Service} {f : Nat} {corr : Corr} {paneId : PaneId}

/-- The state behind a plain entry. -/
theorem Lines.extend (h : Lines s) (entry : Entry) (hplain : Plain entry)
    (hhist : t.history = entry :: s.history) (hn : s.nextFuture ≤ t.nextFuture)
    (hg : t.connectionGeneration = s.connectionGeneration) (hcalls : t.calls = s.calls)
    (hwait : ∀ c w, waiter t.history c = some w → waiter s.history c = some w)
    (hqueued : ∀ c f p, lastQueued t.history = some c → waiter s.history c = some (f, p) →
      ∀ c' input purpose, .issued f c' input (some purpose) ∈ s.history → purpose.line ≠ [] →
        Accepted t.history purpose)
    (hdone : ∀ call ∈ s.calls, ∀ f c input purpose, call.stage = .line f →
      entry = .completed f true → .issued f c input (some purpose) ∈ s.history →
        purpose.line ≠ [] → Accepted s.history purpose)
    (hnew : ∀ f v, entry = .completed f v → f ∉ completions s.history) : Lines t := by
  have hlost := hplain.ne_lost
  refine ⟨?_, ?_, ?_, ?_, ?_, ?_⟩
  · rw [hhist]
    exact inOrder_plain hplain h.inOrder
  · intro g c input purpose hi
    rw [hhist, issued_plain hplain] at hi
    exact Nat.lt_of_lt_of_le (h.issued g c input purpose hi) hn
  · intro c g p hw c' input purpose hi hne
    rw [hhist, issued_plain hplain] at hi
    obtain ⟨hp, hsent⟩ := h.waits c g p (hwait c _ hw) c' input purpose hi hne
    refine ⟨hp, ?_⟩
    rw [hhist]
    exact hsent.imp (fun hs => hs.cons hlost) fun ha => ha.cons hlost
  · intro c g p hl hw c' input purpose hi hne
    rw [hhist, issued_plain hplain] at hi
    exact hqueued c g p hl (hwait c _ hw) c' input purpose hi hne
  · rw [hcalls, hg]
    exact h.generations
  · intro call hc g hstage hgen hline
    rw [hcalls] at hc
    rw [hg] at hgen
    obtain ⟨hissued, hacc⟩ := h.calls call hc g hstage hgen hline
    rw [hhist]
    refine ⟨?_, ?_⟩
    · refine hissued.imp ?_ (List.mem_cons_of_mem _)
      rintro ⟨c, input, hi⟩
      exact ⟨c, input, List.mem_cons_of_mem _ hi⟩
    · intro hm
      refine Accepted.cons ?_ hlost
      cases List.mem_cons.mp hm with
      | inl heq =>
        cases hissued with
        | inl hi =>
          obtain ⟨c, input, hi⟩ := hi
          exact hdone call hc g c input call.purpose hstage heq.symm hi hline
        | inr hf => exact absurd (mem_completions.mpr ⟨_, hf⟩) (hnew g true heq.symm)
      | inr hm => exact hacc hm

/-- A change that the history does not show. -/
theorem Lines.same (h : Lines s) (hhist : t.history = s.history)
    (hn : s.nextFuture ≤ t.nextFuture) (hg : t.connectionGeneration = s.connectionGeneration)
    (hcalls : t.calls = s.calls) : Lines t := by
  refine ⟨?_, ?_, ?_, ?_, ?_, ?_⟩
  · rw [hhist]
    exact h.inOrder
  · intro g c input purpose hi
    rw [hhist] at hi
    exact Nat.lt_of_lt_of_le (h.issued g c input purpose hi) hn
  · rw [hhist]
    exact h.waits
  · rw [hhist]
    exact h.queued
  · rw [hcalls, hg]
    exact h.generations
  · rw [hcalls, hg, hhist]
    exact h.calls

theorem Lines.sent (h : Lines s) (corr : Corr) (message : Message) :
    Lines (s.note (.sent corr message)) := by
  refine h.extend (.sent corr message) trivial rfl (Nat.le_refl _) rfl rfl (fun _ _ hw => hw) ?_ ?_ ?_
  · intro c g p hl hw c' input purpose hi hne
    exact (h.queued c g p hl hw c' input purpose hi hne).cons (by simp)
  · intro call hc g c input purpose hstage heq
    cases heq
  · intro g v heq
    cases heq

/-- An acknowledgement, before the service does anything about it. -/
theorem Lines.acknowledged (h : Lines s) (corr : Corr) (ack : SendInputAck) :
    Lines (s.note (.acknowledged corr ack)) := by
  refine h.extend (.acknowledged corr ack) trivial rfl (Nat.le_refl _) rfl rfl (fun _ _ hw => hw) ?_ ?_ ?_
  · intro c g p hl hw c' input purpose hi hne
    by_cases hq : Queues s.history corr ack
    · have hc : corr = c := Option.some.inj ((lastQueued_queues hq).symm.trans hl)
      rw [← hc] at hw
      obtain ⟨hp, hsent⟩ := h.waits corr g p hw c' input purpose hi hne
      obtain ⟨ha, -, hpane⟩ := hq
      rw [hw] at hpane
      cases hsent with
      | inl hsent => exact hsent.accepted ha ((Option.some.inj hpane).symm.trans hp)
      | inr hacc => exact hacc.cons (by simp)
    · have hl : lastQueued s.history = some c := (quiet_acknowledged hq).2.1.symm.trans hl
      exact (h.queued c g p hl hw c' input purpose hi hne).cons (by simp)
  · intro call hc g c input purpose hstage heq
    cases heq
  · intro g v heq
    cases heq

/-- A future is completed that no call waits for with its line. -/
theorem Lines.complete (h : Lines s) (v : Bool) (hnot : f ∉ completions s.history)
    (hcalls : v = true → ∀ call ∈ s.calls, call.stage ≠ .line f) :
    Lines (s.note (.completed f v)) := by
  refine h.extend (.completed f v) trivial rfl (Nat.le_refl _) rfl rfl ?_ ?_ ?_ ?_
  · intro c w hw
    exact (waiter_completed.mp hw).1
  · intro c g p hl hw c' input purpose hi hne
    exact (h.queued c g p hl hw c' input purpose hi hne).cons (by simp)
  · intro call hc g c input purpose hstage heq
    cases heq
    exact absurd hstage (hcalls rfl call hc)
  · intro g w heq
    cases heq
    exact hnot

/-- A reply that says yes is the acceptance of the line it answers. -/
theorem Lines.finishReply (h : Lines s) (ht : Tables s) (corr : Corr) (accepted : Bool)
    (hyes : accepted = true → ∀ f p c input purpose, waiter s.history corr = some (f, p) →
      .issued f c input (some purpose) ∈ s.history → purpose.line ≠ [] →
        Accepted s.history purpose) : Lines (s.finishReply corr accepted) := by
  obtain ⟨hun, -⟩ := finishReply_fields ht corr accepted
  have hhist := finishReply_history ht corr accepted
  unfold answered at hhist
  obtain hw | ⟨⟨f, p⟩, hw⟩ := Option.eq_none_or_eq_some (waiter s.history corr)
  · rw [hw] at hhist
    exact h.same hhist (Nat.le_of_eq hun.nextFuture.symm) hun.generation hun.calls
  · rw [hw] at hhist
    refine h.extend (.completed f accepted) trivial hhist (Nat.le_of_eq hun.nextFuture.symm)
      hun.generation hun.calls ?_ ?_ ?_ ?_
    · intro c w hc
      rw [waiter_finishReply ht] at hc
      split at hc
      · cases hc
      · exact hc
    · intro c g q hl hc c' input purpose hi hne
      rw [hhist] at hl ⊢
      exact (h.queued c g q hl hc c' input purpose hi hne).cons (by simp)
    · intro call hc g c input purpose hstage heq hi hne
      cases heq
      exact hyes rfl f p c input purpose hw hi hne
    · intro g v heq
      cases heq
      exact (ht.futures corr _ hw).2

theorem Lines.refused (h : Lines s) (ht : Tables s) (corr : Corr) :
    Lines (s.finishReply corr false) :=
  h.finishReply ht corr false fun hyes => by cases hyes

theorem Lines.futureValue (h : Lines s) (ht : Tables s) : Lines (s.futureValue false).1 := by
  have hnext : Lines { s with nextFuture := s.nextFuture + 1 } :=
    h.same rfl (Nat.le_succ _) rfl rfl
  exact hnext.complete false ht.fresh_future.1 fun hv => by cases hv

theorem issued_cons {rest : List Entry} {g : Nat} {c c' : Corr} {input input' : SendInput}
    {purpose purpose' : Option Purpose} (hm : .issued g c input purpose ∈
      Entry.issued f c' input' purpose' :: rest) :
    (g = f ∧ c = c' ∧ input = input' ∧ purpose = purpose') ∨
      .issued g c input purpose ∈ rest := by
  cases List.mem_cons.mp hm with
  | inl heq =>
    cases heq
    exact .inl ⟨rfl, rfl, rfl, rfl⟩
  | inr hm => exact .inr hm

theorem Lines.issue (h : Lines s) (ht : Tables s) (input : SendInput) (purpose : Option Purpose)
    (hfollows : ∀ q, purpose = some q → Follows s.history q input) :
    Lines (issue input purpose s) := by
  have hwait : ∀ c, waiter (Submits.issue input purpose s).history c =
      if .terminal s.corrSequence = c then some (s.nextFuture, input.paneId)
      else waiter s.history c := fun _ => rfl
  have hlast : lastQueued (Submits.issue input purpose s).history = lastQueued s.history := rfl
  have hhist : (Submits.issue input purpose s).history =
      .issued s.nextFuture (.terminal s.corrSequence) input purpose :: s.history := rfl
  have hold : ∀ {g c input' purpose'}, g < s.nextFuture →
      .issued g c input' purpose' ∈ (Submits.issue input purpose s).history →
        .issued g c input' purpose' ∈ s.history := by
    intro g c input' purpose' hlt hm
    rw [hhist] at hm
    exact (issued_cons hm).resolve_left fun heq => Nat.lt_irrefl _ (heq.1 ▸ hlt)
  refine ⟨?_, ?_, ?_, ?_, h.generations, ?_⟩
  · cases purpose with
    | none => exact h.inOrder
    | some q => exact ⟨hfollows q rfl, h.inOrder⟩
  · intro g c input' purpose' hm
    show g < s.nextFuture + 1
    rw [hhist] at hm
    cases issued_cons hm with
    | inl heq => exact heq.1 ▸ Nat.lt_succ_self _
    | inr hm => exact Nat.lt_succ_of_lt (h.issued g c input' purpose' hm)
  · intro c g p hw c' input' q hm hne
    rw [hwait] at hw
    split at hw
    · rename_i hc
      cases hw
      rw [hhist] at hm ⊢
      cases issued_cons hm with
      | inl heq =>
        obtain ⟨-, -, -, hq⟩ := heq
        obtain hline | hempty | ⟨hpane, hacc⟩ := hfollows q hq.symm
        · rw [← hq, ← hc, hline]
          exact ⟨rfl, .inl (sentLine_issued _ _ q _)⟩
        · exact absurd hempty hne
        · exact ⟨hpane, .inr (hacc.cons (by simp))⟩
      | inr hm => exact absurd (h.issued _ _ _ _ hm) (Nat.lt_irrefl _)
    · obtain ⟨hp, hsent⟩ := h.waits c g p hw c' input' q (hold (ht.futures c _ hw).1 hm) hne
      exact ⟨hp, hsent.imp (fun hs => hs.cons (by simp)) fun ha => ha.cons (by simp)⟩
  · intro c g p hl hw c' input' q hm hne
    rw [hlast] at hl
    have hne' : ¬Corr.terminal s.corrSequence = c := fun heq => ht.fresh_lastQueued hl heq.symm
    rw [hwait, if_neg hne'] at hw
    exact (h.queued c g p hl hw c' input' q (hold (ht.futures c _ hw).1 hm) hne).cons (by simp)
  · intro call hc g hstage hgen hline
    obtain ⟨hissued, hacc⟩ := h.calls call hc g hstage hgen hline
    refine ⟨?_, ?_⟩
    · refine hissued.imp ?_ (List.mem_cons_of_mem _)
      rintro ⟨c, input', hi⟩
      exact ⟨c, input', List.mem_cons_of_mem _ hi⟩
    · intro hm
      refine Accepted.cons (hacc ?_) (by simp)
      rw [hhist] at hm
      simpa using hm

theorem Lines.sendAndWait (h : Lines s) (ht : Tables s) (input : SendInput)
    (purpose : Option Purpose) (throws : Bool)
    (hfollows : ∀ q, purpose = some q → Follows s.history q input) :
    Lines (s.sendAndWait input purpose throws).1 := by
  rw [sendAndWait_eq]
  split
  · exact h.futureValue ht
  · have hissue := h.issue ht input purpose hfollows
    have htables := ht.issue input purpose
    split
    · exact (hissue.refused htables _).futureValue (htables.finishReply _ false)
    · exact hissue.sent _ _

/-- A request of nobody's call. -/
theorem Lines.request (h : Lines s) (ht : Tables s) (input : SendInput) (throws : Bool) :
    Lines (s.sendAndWait input none throws).1 :=
  h.sendAndWait ht input none throws fun q hq => by cases hq

theorem Lines.send (h : Lines s) (ht : Tables s) (message : Message) (throws : Bool)
    (hnone : waiter s.history corr = none) : Lines (s.send message corr throws) := by
  unfold Service.send
  split
  · exact h
  · have hawait : Lines (s.await corr (Service.requestPane message)) :=
      h.same rfl (Nat.le_refl _) rfl rfl
    have htables : Tables (s.await corr (Service.requestPane message)) := by
      apply ht.await
      intro f p hw
      rw [hnone] at hw
      cases hw
    dsimp only
    split
    · exact hawait.refused htables corr
    · exact hawait.sent _ _

theorem Lines.sendMessage (h : Lines s) (ht : Tables s) (message : Message) (name : Option Text)
    (throws : Bool) : Lines (s.sendMessage message name throws) := by
  unfold Service.sendMessage
  split
  · exact h
  · cases name with
    | none =>
      have hfresh : Lines s.freshCorr.1 := h.same rfl (Nat.le_refl _) rfl rfl
      exact hfresh.send ht.freshCorr message throws ht.fresh_waiter
    | some name => exact h.send ht message throws (ht.caller_waiter name)

/-- A held line was accepted, so the Enter that takes it over follows it. -/
theorem Lines.handOver (h : Lines s) (ht : Tables s) {previous : Corr}
    (hh : Holds s f previous paneId) : Lines (handOver f previous paneId s) := by
  have hwait : ∀ c, waiter (Submits.handOver f previous paneId s).history c =
      if .terminal s.corrSequence = c then some (f, paneId)
      else if previous = c then none else waiter s.history c := fun _ => rfl
  have hmem : ∀ {g c input purpose},
      .issued g c input purpose ∈ (Submits.handOver f previous paneId s).history →
        .issued g c input purpose ∈ s.history := by
    intro g c input purpose hm
    have hm : .issued g c input purpose ∈ Entry.handed f previous _ paneId :: s.history := hm
    simpa using hm
  have hlast : lastQueued s.history = some previous := (ht.queued_waits hh.queued).1
  have hacc : ∀ c input purpose, .issued f c input (some purpose) ∈ s.history →
      purpose.line ≠ [] → paneId = purpose.paneId ∧ Accepted s.history purpose := by
    intro c input purpose hm hne
    exact ⟨(h.waits previous f paneId hh.waits c input purpose hm hne).1,
      h.queued previous f paneId hlast hh.waits c input purpose hm hne⟩
  refine ⟨⟨hacc, h.inOrder⟩, ?_, ?_, ?_, h.generations, ?_⟩
  · intro g c input purpose hm
    exact h.issued g c input purpose (hmem hm)
  · intro c g p hw c' input purpose hm hne
    rw [hwait] at hw
    split at hw
    · cases hw
      obtain ⟨hp, ha⟩ := hacc c' input purpose (hmem hm) hne
      exact ⟨hp, .inr (ha.cons (by simp))⟩
    · split at hw
      · cases hw
      · obtain ⟨hp, hsent⟩ := h.waits c g p hw c' input purpose (hmem hm) hne
        exact ⟨hp, hsent.imp (fun hs => hs.cons (by simp)) fun ha => ha.cons (by simp)⟩
  · intro c g p hl hw
    have hc : previous = c := Option.some.inj (hlast.symm.trans hl)
    rw [hwait, if_pos hc] at hw
    split at hw
    · rename_i hfresh
      exact absurd hfresh.symm (ht.fresh_lastQueued hl)
    · cases hw
  · intro call hc g hstage hgen hline
    obtain ⟨hissued, hdone⟩ := h.calls call hc g hstage hgen hline
    refine ⟨?_, ?_⟩
    · refine hissued.imp ?_ (List.mem_cons_of_mem _)
      rintro ⟨c, input, hi⟩
      exact ⟨c, input, List.mem_cons_of_mem _ hi⟩
    · intro hm
      have hm : Entry.completed g true ∈ Entry.handed f previous _ paneId :: s.history := hm
      exact Accepted.cons (hdone (by simpa using hm)) (by simp)

theorem Lines.sendQueuedComposerNow (h : Lines s) (ht : Tables s) (paneId : PaneId)
    (throws : Bool) : Lines (s.sendQueuedComposerNow paneId throws) := by
  obtain ⟨-, heq⟩ | ⟨f, previous, hh, heq⟩ := sendQueuedComposerNow_cases ht paneId throws
  · rw [heq]
    exact h
  · rw [heq]
    split
    · exact (h.handOver ht hh).refused (ht.handOver hh) _
    · exact (h.handOver ht hh).sent _ _

theorem Lines.onSendInputAck (h : Lines s) (ht : Tables s) (corr : Corr) (ack : SendInputAck) :
    Lines (s.onSendInputAck corr ack) := by
  have hnote := h.acknowledged corr ack
  obtain ⟨pending, -, -, heq⟩ | ⟨hq, -, ⟨pending, hp, hpane⟩, heq⟩ | ⟨-, -, heq⟩ :=
    onSendInputAck_cases ht corr ack
  · rw [heq]
    exact hnote.same rfl (Nat.le_refl _) rfl rfl
  · rw [heq]
    refine hnote.finishReply (ht.note (quiet_acknowledged hq)) corr ack.accepted ?_
    intro hyes f p c input purpose hw hm hne
    have hw : waiter s.history corr = some (f, p) := hw
    have hm : .issued f c input (some purpose) ∈ s.history :=
      (@issued_plain (.acknowledged corr ack) _ trivial _ _ _ _).mp hm
    obtain ⟨hpurpose, hsent⟩ := h.waits corr f p hw c input purpose hm hne
    have hsame := (ht.pending_pane hp hw).symm.trans hpane
    cases hsent with
    | inl hsent =>
      exact hsent.accepted hyes ((Option.some.inj hsame).symm.trans hpurpose)
    | inr hacc => exact hacc.cons (by simp)
  · rw [heq]
    exact hnote

theorem Lines.onPong (h : Lines s) (ht : Tables s) (corr : Corr) : Lines (s.onPong corr) := by
  unfold Service.onPong
  split
  · exact h
  · rename_i pending hp
    split
    · rename_i hpane
      refine h.finishReply ht corr true ?_
      intro _ f p c input purpose hw
      rw [ht.pending_pane hp hw] at hpane
      cases hpane
    · exact h

/-- A call goes on to wait for this future. -/
theorem Lines.park (h : Lines s) (call : ComposerCall)
    (hg : call.generation ≤ s.connectionGeneration)
    (hline : ∀ f, call.stage = .line f → call.generation = s.connectionGeneration →
      call.line ≠ [] → ((∃ c input, .issued f c input (some call.purpose) ∈ s.history) ∨
        .completed f false ∈ s.history) ∧
      (.completed f true ∈ s.history → Accepted s.history call.purpose)) :
    Lines { s with calls := call :: s.calls } := by
  refine ⟨h.inOrder, h.issued, h.waits, h.queued, ?_, ?_⟩
  · intro other hm
    cases List.mem_cons.mp hm with
    | inl heq => exact heq ▸ hg
    | inr hm => exact h.generations other hm
  · intro other hm
    cases List.mem_cons.mp hm with
    | inl heq => exact heq ▸ hline
    | inr hm => exact h.calls other hm

theorem Lines.released (h : Lines s) (call : ComposerCall) :
    Lines (Calls.released call s) :=
  ⟨h.inOrder, h.issued, h.waits, h.queued,
    fun other hm => h.generations other (List.mem_of_mem_erase hm),
    fun other hm => h.calls other (List.mem_of_mem_erase hm)⟩

theorem generation_sendAndWait (ht : Tables s) (input : SendInput) (purpose : Option Purpose)
    (throws : Bool) :
    (s.sendAndWait input purpose throws).1.connectionGeneration = s.connectionGeneration := by
  rw [sendAndWait_eq]
  split
  · rfl
  · split
    · exact (finishReply_fields (ht.issue input purpose) _ false).1.generation
    · rfl

/-- The future that a request gives was issued for it, or it is complete with no. -/
theorem future_sendAndWait (ht : Tables s) (input : SendInput) (purpose : Option Purpose)
    (throws : Bool) :
    ((∃ c input', .issued (s.sendAndWait input purpose throws).2 c input' purpose ∈
        (s.sendAndWait input purpose throws).1.history) ∨
      .completed (s.sendAndWait input purpose throws).2 false ∈
        (s.sendAndWait input purpose throws).1.history) ∧
      .completed (s.sendAndWait input purpose throws).2 true ∉
        (s.sendAndWait input purpose throws).1.history := by
  have hfresh : ∀ v, .completed s.nextFuture v ∉ s.history :=
    fun v hm => ht.fresh_future.1 (mem_completions.mpr ⟨v, hm⟩)
  refine ⟨?_, ?_⟩
  · rw [sendAndWait_eq]
    split
    · exact .inr (List.mem_cons_self ..)
    · split
      · exact .inr (List.mem_cons_self ..)
      · exact .inl ⟨_, input, List.mem_cons_of_mem _ (List.mem_cons_self ..)⟩
  · rw [completed_sendAndWait ht]
    rintro (hm | ⟨hv, -⟩)
    · have hle : s.nextFuture ≤ (s.sendAndWait input purpose throws).2 := by
        rw [sendAndWait_eq]
        split
        · exact Nat.le_refl _
        · split
          · have hn := (finishReply_fields (ht.issue input purpose) (.terminal s.corrSequence)
              false).1.nextFuture
            show s.nextFuture ≤ ((issue input purpose s).finishReply _ false).nextFuture
            rw [hn]
            exact Nat.le_succ _
          · exact Nat.le_refl _
      exact absurd (ht.past _ (mem_completions.mpr ⟨_, hm⟩)) (Nat.not_lt_of_ge hle)
    · cases hv

/-- The Enter of a call whose line is empty or was accepted. -/
theorem Lines.sendEnter (h : Lines s) (ht : Tables s) {call : ComposerCall} (throws : Bool)
    (hg : call.generation ≤ s.connectionGeneration)
    (hline : call.line = [] ∨ Accepted s.history call.purpose) :
    Lines (s.sendEnter call throws) := by
  have hsend : Lines (s.sendAndWait (Service.enterRequest call.paneId call.whenIdle)
      (some call.purpose) throws).1 := by
    apply h.sendAndWait ht
    intro q hq
    cases hq
    exact .inr (hline.imp id fun hacc => ⟨rfl, hacc⟩)
  refine hsend.park { call with stage := .enter _ } ?_ ?_
  · rw [generation_sendAndWait ht]
    exact hg
  · intro g hstage
    cases hstage

theorem Lines.sendComposerSubmit (h : Lines s) (ht : Tables s) (paneId : PaneId) (line : Text)
    (whenIdle throws : Bool) : Lines (s.sendComposerSubmit paneId line whenIdle throws) := by
  have hnext : Lines { s with nextFuture := s.nextFuture + 1 } :=
    h.same rfl (Nat.le_succ _) rfl rfl
  unfold Service.sendComposerSubmit
  dsimp only
  split
  · rename_i hempty
    exact hnext.sendEnter ht.nextFuture throws (Nat.le_refl _) (.inl hempty)
  · obtain ⟨hfuture, hnot⟩ := future_sendAndWait ht.nextFuture (Service.lineRequest paneId line)
      (some ⟨s.nextFuture, paneId, line⟩) throws
    have hsend : Lines ({ s with nextFuture := s.nextFuture + 1 }.sendAndWait
        (Service.lineRequest paneId line) (some ⟨s.nextFuture, paneId, line⟩) throws).1 := by
      apply hnext.sendAndWait ht.nextFuture
      intro q hq
      cases hq
      exact .inl rfl
    refine hsend.park { stage := .line _, .. } ?_ ?_
    · rw [generation_sendAndWait ht.nextFuture]
    · intro f hstage _ _
      cases hstage
      refine ⟨?_, fun hm => absurd hm hnot⟩
      refine hfuture.imp ?_ id
      rintro ⟨c, input, hm⟩
      exact ⟨c, input, hm⟩

theorem Lines.refuseAll (h : Lines s) (ht : Tables s) (corrs : List Corr) :
    Lines (refuseAll corrs s) := by
  induction corrs generalizing s with
  | nil => exact h
  | cons corr corrs ih => exact ih (h.refused ht corr) (ht.finishReply corr false)

/-- Nobody waits, and each call is of a session before. -/
theorem Lines.lost (h : Lines s) (hwait : ∀ c, waiter s.history c = none)
    (hold : ∀ call ∈ s.calls, call.generation < s.connectionGeneration) :
    Lines (s.note .lost) := by
  refine ⟨h.inOrder, ?_, ?_, ?_, h.generations, ?_⟩
  · intro f c input purpose hm
    have hm : Entry.issued f c input purpose ∈ Entry.lost :: s.history := hm
    exact h.issued f c input purpose (by simpa using hm)
  · intro c f p hw
    cases (hwait c).symm.trans hw
  · intro c f p _ hw
    cases (hwait c).symm.trans hw
  · intro call hc f _ hg
    exact absurd hg (Nat.ne_of_lt (hold call hc))

theorem Lines.disconnect (h : Lines s) (ht : Tables s) : Lines s.disconnect := by
  have hnext := ht.nextGeneration
  have hlines : Lines { s with connectionGeneration := s.connectionGeneration + 1 } := by
    refine ⟨h.inOrder, h.issued, h.waits, h.queued, ?_, ?_⟩
    · intro call hc
      exact Nat.le_succ_of_le (h.generations call hc)
    · intro call hc f _ hg
      exact absurd hg (Nat.ne_of_lt (Nat.lt_succ_of_le (h.generations call hc)))
  have hun := refuseAll_untouched hnext s.pendingReplies.keys
  apply (hlines.refuseAll hnext s.pendingReplies.keys).lost
  · exact (disconnect_spec ht).2.1
  · intro call hc
    rw [hun.calls] at hc
    rw [hun.generation]
    exact Nat.lt_succ_of_le (h.generations call hc)

/-- The Enter that a call sends after its line follows the line. -/
theorem Lines.resume (h : Lines s) (ht : Tables s) (ho : Owned s []) {call : ComposerCall}
    (hc : call ∈ s.calls) {value : Bool}
    (hv : Service.valueOf s.history call.stage.awaited = some value) (throws : Bool) :
    Lines ((Calls.released call s).resume call value throws) := by
  obtain ⟨v, -, heq⟩ | ⟨-, ⟨f, hstage⟩, rfl, hg, heq⟩ := resume_cases hv throws
  · rw [heq]
    obtain ⟨-, hnot⟩ := (ho.take hc).fresh call.future (List.mem_cons_self ..)
    refine (h.released call).complete v (fun hm => hnot (.inl hm)) ?_
    intro _ other hm hstage
    have hcov := ho.awaited other (List.mem_of_mem_erase hm)
    rw [hstage] at hcov
    exact hnot hcov
  · rw [heq]
    refine (h.released call).sendEnter (ht.withCalls _) throws (h.generations call hc) ?_
    by_cases hline : call.line = []
    · exact .inl hline
    · refine .inr ((h.calls call hc f hstage hg hline).2 ?_)
      rw [hstage] at hv
      exact valueOf_mem hv

theorem lines_expire (h : Lines s) (ht : Tables s) (timer : Nat) (corr : Corr) :
    Lines (expire timer corr s) := by
  have hcancel : Lines (s.cancelTimer timer) := h.same rfl (Nat.le_refl _) rfl rfl
  exact hcancel.refused (ht.cancelTimer timer) corr

theorem lines_step {e : Service.Event} (h : Lines s) (hsettled : Settled s)
    (hs : s.step e = some t) : Lines t := by
  have ht := hsettled.tables
  have hopen : ∀ {u}, (if s.disposed then none else some u) = some t → u = t := by
    intro u hu
    split at hu
    · cases hu
    · exact Option.some.inj hu
  cases e with
  | sendComposerLine paneId line throws =>
    cases hs
    exact h.sendMessage ht _ none throws
  | sendMessage message corr throws =>
    cases hs
    exact h.sendMessage ht message corr throws
  | sendComposerSubmit paneId line whenIdle throws =>
    cases hs
    exact h.sendComposerSubmit ht paneId line whenIdle throws
  | sendAnswerSubmit paneId text throws =>
    cases hs
    exact h.request ht _ throws
  | cancelComposerSubmit paneId throws =>
    cases hs
    exact h.request ht _ throws
  | sendQueuedComposerNow paneId throws =>
    cases hs
    exact h.sendQueuedComposerNow ht paneId throws
  | sendInputAck corr ack =>
    rw [← hopen hs]
    exact h.onSendInputAck ht corr ack
  | pong corr =>
    rw [← hopen hs]
    exact h.onPong ht corr
  | error corr =>
    rw [← hopen hs]
    exact h.refused ht corr
  | timeout timer =>
    simp only [Service.step] at hs
    split at hs
    · cases hs
    · cases hs
      exact lines_expire h ht timer _
  | resume call throws =>
    simp only [Service.step] at hs
    split at hs
    · rename_i hc
      split at hs
      · cases hs
      · rename_i value hv
        cases hs
        exact h.resume ht hsettled.owned hc hv throws
    · cases hs
  | disconnect =>
    cases hs
    exact h.disconnect ht
  | dispose =>
    cases hs
    have hdisposed : Lines { s with disposed := true } := h.same rfl (Nat.le_refl _) rfl rfl
    exact hdisposed.disconnect ht.disposed

end Lines

/-- After a loss of the connection a future is complete, or its call returns as soon as its
body goes on. -/
def Cleared (t : Service) : Prop :=
  ∀ f < t.nextFuture, f ∈ completions t.history ∨
    ∃ call ∈ t.calls, call.future = f ∧
      ∀ throws, ∃ u, t.step (.resume call throws) = some u ∧ f ∈ completions u.history

theorem cleared_disconnect {s : Service} (h : Settled s) (hl : Lines s) :
    Cleared s.disconnect := by
  have hnext : Settled s.disconnect :=
    h.grows h.tables.disconnect (disconnect_spec h.tables).1
  have hwait := (disconnect_spec h.tables).2.1
  have hdone : ∀ f, Covered s.disconnect f → f ∈ completions s.disconnect.history := by
    intro f hf
    refine hf.resolve_right ?_
    rintro ⟨c, p, hw⟩
    cases (hwait c).symm.trans hw
  intro f hf
  obtain hcov | hm := hnext.owned.all f hf
  · exact .inl (hdone f hcov)
  · obtain ⟨call, hc, rfl⟩ := List.mem_map.mp hm
    refine .inr ⟨call, hc, rfl, fun throws => ?_⟩
    have hawait := hdone _ (hnext.owned.awaited call hc)
    obtain ⟨value, hv⟩ := Option.isSome_iff_exists.mp (valueOf_isSome.mpr hawait)
    have hun := refuseAll_untouched h.tables.nextGeneration s.pendingReplies.keys
    have hgen : call.generation ≠ s.disconnect.connectionGeneration := by
      have hle := hl.generations call (hun.calls ▸ hc)
      show _ ≠ (refuseAll s.pendingReplies.keys _).connectionGeneration
      rw [hun.generation]
      exact Nat.ne_of_lt (Nat.lt_succ_of_le hle)
    refine ⟨(released call s.disconnect).resume call value throws, ?_, ?_⟩
    · simp only [Service.step, if_pos hc, hv]
      rfl
    · obtain ⟨v, -, heq⟩ | ⟨-, -, -, hg, -⟩ := resume_cases hv throws
      · rw [heq]
        exact List.mem_cons_self ..
      · exact absurd hg hgen

/-- The invariants of every run. -/
structure Sound (s : Service) : Prop where
  settled : Settled s
  lines : Lines s

theorem sound_visits {es : List Service.Event} {s : Service}
    (h : Visits Service.step Service.start es s) : Sound s :=
  visits_of_step Sound ⟨settled_start, lines_start⟩
    (fun hs hstep => ⟨settled_step hs.settled hstep, lines_step hs.lines hs.settled hstep⟩) h

/-- The composer shows a held submit: the one that was held last, while it waits. -/
def HeldLast (s : Service) : Prop :=
  ∃ c, lastQueued s.history = some c ∧ (waiter s.history c).isSome = true

theorem queued_iff {s : Service} (h : Tables s) : s.composerQueued = true ↔ HeldLast s := by
  rw [h.shown, h.queued, Option.isSome_iff_exists]
  unfold HeldLast
  simp only [Option.filter_eq_some_iff]

/-- What holds of the submits in every run: a future is completed once, by the answer to its
own request or by its call, a loss of the connection leaves nothing to wait for, the composer
shows the submit that was held last, and every Enter follows its line. -/
theorem submits_settle (es : List Service.Event) (s : Service)
    (h : run Service.step Service.start es = some s) :
    (completions s.history).Nodup ∧
      (∀ a e b, Occurs Service.step Service.start es a e b → ∀ f v,
        .completed f v ∈ b.history ↔ .completed f v ∈ a.history ∨ Completes a e b f v) ∧
      (∀ a e b, Occurs Service.step Service.start es a e b → e = .disconnect ∨ e = .dispose →
        Cleared b) ∧
      (s.composerQueued = true ↔ HeldLast s) ∧
      InOrder s.history := by
  have hend := sound_visits (visits_end h)
  refine ⟨hend.settled.tables.once, ?_, ?_, queued_iff hend.settled.tables, hend.lines.inOrder⟩
  · intro a e b hocc
    exact completed_step (sound_visits hocc.before).settled hocc.step_eq
  · intro a e b hocc hlost
    have hbefore := sound_visits hocc.before
    have hs := hocc.step_eq
    obtain rfl | rfl := hlost
    · cases hs
      exact cleared_disconnect hbefore.settled hbefore.lines
    · cases hs
      exact cleared_disconnect (settled_disposed hbefore.settled)
        (hbefore.lines.same rfl (Nat.le_refl _) rfl rfl)

/-- A line, its Enter held by the Host, sent now, and a loss of the connection. -/
def smallRun : List Service.Event :=
  [ .sendComposerSubmit "p".toList "ls".toList true false,
    .sendInputAck (.terminal 0) { paneId := "p".toList, accepted := true, queued := false },
    .resume ⟨0, "p".toList, "ls".toList, true, 0, .line 1⟩ false,
    .sendInputAck (.terminal 1) { paneId := "p".toList, accepted := true, queued := true },
    .sendQueuedComposerNow "p".toList false,
    .disconnect,
    .resume ⟨0, "p".toList, "ls".toList, true, 0, .enter 2⟩ false ]

theorem submits_settle_small :
    ∃ s, run Service.step Service.start smallRun = some s ∧
      (completions s.history).Nodup ∧
      (∀ a e b, Occurs Service.step Service.start smallRun a e b → ∀ f v,
        .completed f v ∈ b.history ↔ .completed f v ∈ a.history ∨ Completes a e b f v) ∧
      (∀ a e b, Occurs Service.step Service.start smallRun a e b →
        e = .disconnect ∨ e = .dispose → Cleared b) ∧
      (s.composerQueued = true ↔ HeldLast s) ∧
      InOrder s.history := by
  have hsome : (run Service.step Service.start smallRun).isSome = true := by decide
  obtain ⟨s, hs⟩ := Option.isSome_iff_exists.mp hsome
  exact ⟨s, hs, submits_settle smallRun s hs⟩

/-- Some submit that was acknowledged as queued waits for its final reply, and no later
Enter has taken it over. -/
def HeldSome (s : Service) : Prop :=
  ∃ c ack f, .acknowledged c ack ∈ s.history ∧ ack.accepted = true ∧ ack.queued = true ∧
    waiter s.history c = some (f, ack.paneId)

/-- Two submits are held, and the second gets its final reply. -/
def twoHeld : List Service.Event :=
  [ .sendComposerSubmit "p".toList [] true false,
    .sendComposerSubmit "q".toList [] true false,
    .sendInputAck (.terminal 0) { paneId := "p".toList, accepted := true, queued := true },
    .sendInputAck (.terminal 1) { paneId := "q".toList, accepted := true, queued := true },
    .sendInputAck (.terminal 1) { paneId := "q".toList, accepted := true, queued := false } ]

/-- The composer has one place for a held submit, so it forgets the first of two. -/
theorem held_forgotten :
    ¬∀ es s, run Service.step Service.start es = some s →
      (s.composerQueued = true ↔ HeldSome s) := by
  intro hall
  have hstate : (run Service.step Service.start twoHeld).any (fun s =>
      decide (s.composerQueued = false ∧ waiter s.history (.terminal 0) = some (1, "p".toList) ∧
        Entry.acknowledged (.terminal 0)
          { paneId := "p".toList, accepted := true, queued := true } ∈ s.history)) = true := by
    decide
  obtain ⟨s, hs, hp⟩ := (Option.any_eq_true _ _).mp hstate
  obtain ⟨hshown, hwait, hmem⟩ := of_decide_eq_true hp
  have hheld : HeldSome s := ⟨_, _, _, hmem, rfl, rfl, hwait⟩
  have hqueued := (hall twoHeld s hs).mpr hheld
  cases hshown.symm.trans hqueued

end HerdrMobile.App.Enters
