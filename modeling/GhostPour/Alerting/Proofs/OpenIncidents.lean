/-
Module: GhostPour.Alerting.Proofs.OpenIncidents
Layer: Proof
Purpose: No order of statements opens a second incident of a fingerprint, or sends an email of an
  incident to a recipient twice. The look-up and the insert of a report are in the transaction that
  its sweep began, so between them either the connection holds the write lock, or its snapshot is
  what is committed when it takes it.
Trusted boundary: none
Main exports: OneOpen, AlertsSound, alerts_sound_step, one_open_incident_mailed_once
-/
import GhostPour.Alerting.Incidents

namespace GhostPour.Alerting

/-! ### Incidents -/

/-- A fingerprint has at most one open incident. -/
def OneOpen (db : AlertDb) : Prop :=
  ∀ id row id' row', db.incidents.get id = some row → db.incidents.get id' = some row' →
    row.resolvedAt = none → row'.resolvedAt = none → row.fingerprint = row'.fingerprint → id = id'

/-- No incident of the fingerprint is open. -/
def NoneOpen (fp : PyStr) (db : AlertDb) : Prop :=
  ∀ id row, db.incidents.get id = some row → row.opens fp = false

/-- No incident is gone. -/
def KeepsIncidents (db db' : AlertDb) : Prop :=
  ∀ id, db.incidents.get id ≠ none → db'.incidents.get id ≠ none

/-- Incidents are only closed. -/
def Closes (db db' : AlertDb) : Prop :=
  ∀ id row', db'.incidents.get id = some row' → ∃ row, db.incidents.get id = some row ∧
    row.fingerprint = row'.fingerprint ∧ (row'.resolvedAt = none → row.resolvedAt = none)

section
variable {db db' : AlertDb}

theorem OneOpen.closes (one : OneOpen db) (closes : Closes db db') : OneOpen db' := by
  intro id row id' row' stored stored' open_ open_' same
  obtain ⟨before, there, fp, opened⟩ := closes id row stored
  obtain ⟨before', there', fp', opened'⟩ := closes id' row' stored'
  exact one id before id' before' there there' (opened open_) (opened' open_')
    (fp.trans (same.trans fp'.symm))

theorem KeepsIncidents.refl (db : AlertDb) : KeepsIncidents db db := fun _ stored => stored

theorem KeepsIncidents.trans {db'' : AlertDb} (one : KeepsIncidents db db')
    (two : KeepsIncidents db' db'') : KeepsIncidents db db'' := fun id stored => two id (one id stored)

/-- An update that keeps the fingerprint and opens nothing. -/
theorem update_closes (p : PyStr → Incident → Bool) {f : Incident → Incident}
    (keeps : ∀ row, (f row).fingerprint = row.fingerprint)
    (closing : ∀ row, (f row).resolvedAt = none → row.resolvedAt = none) :
    Closes db (db.onIncidents fun t => t.updateWhere p f) ∧
      KeepsIncidents db (db.onIncidents fun t => t.updateWhere p f) := by
  constructor
  · intro id row' stored
    rw [AlertDb.onIncidents_incidents, Table.get_updateWhere] at stored
    obtain ⟨row, there, eq⟩ := Option.map_eq_some_iff.mp stored
    refine ⟨row, there, ?_⟩
    rw [← eq]
    split
    · exact ⟨(keeps row).symm, closing row⟩
    · exact ⟨rfl, fun open_ => open_⟩
  · intro id stored
    rw [AlertDb.onIncidents_incidents, Table.get_updateWhere]
    simpa using stored

/-- What a statement of the calls does, apart from the insert. -/
structure Harmless (f : AlertDb → AlertDb) : Prop where
  closes : ∀ db, Closes db (f db)
  keeps : ∀ db, KeepsIncidents db (f db)

theorem sweepStale_harmless (cutoffAt stampAt : Instant) : Harmless (sweepStale cutoffAt stampAt) := by
  have both : ∀ db, Closes db (sweepStale cutoffAt stampAt db) ∧
      KeepsIncidents db (sweepStale cutoffAt stampAt db) := fun db =>
    update_closes _ (fun _ => rfl) fun _ closed => by cases closed
  exact ⟨fun db => (both db).1, fun db => (both db).2⟩

theorem bump_harmless (report : IncidentReport) (id : PyStr) : Harmless (bump report id) := by
  have both : ∀ db, Closes db (bump report id db) ∧ KeepsIncidents db (bump report id db) :=
    fun db => update_closes _ (fun _ => rfl) fun _ open_ => open_
  exact ⟨fun db => (both db).1, fun db => (both db).2⟩

theorem noteEmailed_harmless (report : IncidentReport) (emailed : List PyStr) :
    Harmless (noteEmailed report emailed) := by
  have both : ∀ db, Closes db (noteEmailed report emailed db) ∧
      KeepsIncidents db (noteEmailed report emailed db) :=
    fun db => update_closes _ (fun _ => rfl) fun _ open_ => open_
  exact ⟨fun db => (both db).1, fun db => (both db).2⟩

theorem resolveOpen_harmless (category subject : PyStr) (now : Instant) :
    Harmless (resolveOpen category subject now) := by
  have both : ∀ db, Closes db (resolveOpen category subject now db) ∧
      KeepsIncidents db (resolveOpen category subject now db) := fun db =>
    update_closes _ (fun _ => rfl) fun _ closed => by cases closed
  exact ⟨fun db => (both db).1, fun db => (both db).2⟩

theorem id_harmless : Harmless id :=
  ⟨fun _ _ row stored => ⟨row, stored, rfl, fun open_ => open_⟩, fun db => .refl db⟩

/-- The look-up finds nothing exactly when no incident of the fingerprint is open. -/
theorem noneOpen_of_findOpen {fp : PyStr} (nothing : findOpen fp db = none) : NoneOpen fp db :=
  (Table.first_none_iff _ _).mp nothing

/-- An insert that succeeds changes the row of its own id, which was free. -/
theorem openIncident_get {report : IncidentReport} (opened : openIncident report db = some db') :
    db.incidents.get report.incidentId = none ∧
      db'.incidents.get report.incidentId = some report.incident ∧
      ∀ key, key ≠ report.incidentId → db'.incidents.get key = db.incidents.get key := by
  unfold openIncident at opened
  split at opened
  · cases opened
  · next free =>
    cases opened
    refine ⟨free, ?_, fun key ne => Table.get_upsert_of_ne _ _ _ ne⟩
    rw [AlertDb.onIncidents_incidents, Table.get_upsert_self, free]
    rfl

/-- An incident that is inserted where none of its fingerprint is open. -/
theorem OneOpen.insert (one : OneOpen db) {report : IncidentReport}
    (none_ : NoneOpen report.fingerprint db) (opened : openIncident report db = some db') :
    OneOpen db' ∧ KeepsIncidents db db' := by
  obtain ⟨_, here, others⟩ := openIncident_get opened
  -- an open row beside the new one has another fingerprint
  have apart : ∀ key row, db.incidents.get key = some row → row.resolvedAt = none →
      row.fingerprint ≠ report.fingerprint := by
    intro key row stored open_ same
    have closed := none_ key row stored
    simp [Incident.opens, open_, same] at closed
  constructor
  · intro key row key' row' stored stored' open_ open_' same
    rcases eq_or_ne key report.incidentId with rfl | ne
    · rcases eq_or_ne key' report.incidentId with rfl | ne'
      · rfl
      · rw [here] at stored
        cases stored
        rw [others key' ne'] at stored'
        exact absurd same.symm (apart key' row' stored' open_')
    · rw [others key ne] at stored
      rcases eq_or_ne key' report.incidentId with rfl | ne'
      · rw [here] at stored'
        cases stored'
        exact absurd same (apart key row stored open_)
      · rw [others key' ne'] at stored'
        exact one key row key' row' stored stored' open_ open_' same
  · intro key stored
    rcases eq_or_ne key report.incidentId with rfl | ne
    · simp [here]
    · rw [others key ne]
      exact stored

/-- Every recipient is listed once. -/
theorem activeRecipientsFor_nodup (category : PyStr) (db : AlertDb) :
    (activeRecipientsFor category db).Nodup := by
  unfold activeRecipientsFor sortStrs
  rw [(List.perm_insertionSort _ _).nodup_iff]
  exact db.recipients.nodup.sublist (List.filter_sublist.map Prod.fst)

end

/-! ### What holds between any two statements -/

/-- The incident a phase sends emails for. -/
def ReportPhase.mailing? : ReportPhase → Option PyStr
  | .mailing report _ _ => some report.incidentId
  | _ => none

/-- What a phase knows: a report that has found nothing open is in a transaction that sees nothing
open; one that has inserted holds the lock, and nobody else has its incident; one that sends has
still to send to the recipients that are left. -/
def PhaseSound (a : Alerts) (c : Nat) : ReportPhase → Prop
  | .ready => True
  | .found _ _ => True
  | .closing => True
  | .swept _ => a.store.InTransaction c
  | .fresh report => a.store.Holds c ∧ NoneOpen report.fingerprint (a.store.view c)
  | .chosen report recipients =>
      a.store.Holds c ∧ NoneOpen report.fingerprint (a.store.view c) ∧ recipients.Nodup
  | .inserted report recipients =>
      recipients.Nodup ∧ a.store.committed.incidents.get report.incidentId = none ∧
        ∃ copy, a.store.copyOf c = some copy ∧ copy.incidents.get report.incidentId ≠ none
  | .mailing report recipients _ =>
      recipients.Nodup ∧ a.store.committed.incidents.get report.incidentId ≠ none ∧
        ∀ email ∈ recipients, (report.incidentId, email) ∉ a.outbox

/-- The invariant. -/
structure AlertsSound (a : Alerts) : Prop where
  store : a.store.All OneOpen
  grows : a.store.Grows KeepsIncidents
  phases : ∀ c, PhaseSound a c (a.phases c)
  apart : ∀ c c', c ≠ c' → ∀ key, (a.phases c).mailing? = some key → (a.phases c').mailing? ≠ some key
  known : ∀ mail ∈ a.outbox, a.store.committed.incidents.get mail.1 ≠ none
  once : a.outbox.Nodup

section
variable {a : Alerts} {c : Nat}

/-- What another connection knows stays true. -/
theorem PhaseSound.took_other (sound : AlertsSound a) (op : StoreOp AlertDb) (phase : ReportPhase)
    (grown : KeepsIncidents a.store.committed (a.store.apply c op).committed) {c' : Nat}
    (ne : c' ≠ c) : PhaseSound (a.took c op phase) c' (a.phases c') := by
  have before := sound.phases c'
  rcases here : a.phases c' with _ | report | ⟨report, key⟩ | report | ⟨report, recipients⟩ |
    ⟨report, recipients⟩ | ⟨report, recipients, emailed⟩ | _
  all_goals rw [here] at before
  · trivial
  · exact Store.inTransaction_apply_other op before ne
  · trivial
  · obtain ⟨holds, same⟩ := Store.holds_apply_other op before.1 ne
    exact ⟨holds, same ▸ before.2⟩
  · obtain ⟨holds, same⟩ := Store.holds_apply_other op before.1 ne
    exact ⟨holds, same ▸ before.2.1, before.2.2⟩
  · obtain ⟨nodup, absent, copy, writes, stored⟩ := before
    obtain ⟨writes', same⟩ := Store.copyOf_apply_other op writes ne
    refine ⟨nodup, ?_, copy, writes', stored⟩
    rw [Alerts.took]
    simp only
    rw [same]
    exact absent
  · exact ⟨before.1, grown _ before.2.1, before.2.2⟩
  · trivial

/-- A transaction statement whose writes are sound leads to a sound state, when what the next phase
knows is true. -/
theorem AlertsSound.took (sound : AlertsSound a) (op : StoreOp AlertDb) {phase : ReportPhase}
    (writes : ∀ f, op = .write f →
      OneOpen (f (a.store.view c)) ∧ KeepsIncidents (a.store.view c) (f (a.store.view c)))
    (knows : PhaseSound (a.took c op phase) c phase)
    (apart : ∀ c', c' ≠ c → ∀ key, phase.mailing? = some key → (a.phases c').mailing? ≠ some key) :
    AlertsSound (a.took c op phase) := by
  have store := sound.store.apply (c := c) op fun f eq _ => (writes f eq).1
  obtain ⟨grows, grown⟩ := sound.grows.apply (c := c) sound.store KeepsIncidents.refl
    KeepsIncidents.trans op fun f eq => (writes f eq).2
  have phase_self : (a.took c op phase).phases c = phase := Function.update_self ..
  have phase_other : ∀ c', c' ≠ c → (a.took c op phase).phases c' = a.phases c' := fun c' ne =>
    Function.update_of_ne ne ..
  refine ⟨store, grows, fun c' => ?_, fun one two ne key mails => ?_, fun mail member => ?_,
    sound.once⟩
  · rcases eq_or_ne c' c with rfl | ne
    · rw [phase_self]
      exact knows
    · rw [phase_other c' ne]
      exact PhaseSound.took_other sound op phase grown ne
  · rcases eq_or_ne one c with rfl | neOne
    · rw [phase_self] at mails
      rw [phase_other two ne.symm]
      exact apart two ne.symm key mails
    · rw [phase_other one neOne] at mails
      rcases eq_or_ne two c with rfl | neTwo
      · rw [phase_self]
        exact fun mails' => apart one neOne key mails' mails
      · rw [phase_other two neTwo]
        exact sound.apart one two ne key mails
  · exact grown _ (sound.known mail member)

/-- A phase that sends nothing. -/
theorem apart_of_silent {phase : ReportPhase} (silent : phase.mailing? = none) :
    ∀ c', c' ≠ c → ∀ key, phase.mailing? = some key → (a.phases c').mailing? ≠ some key := by
  intro c' _ key mails
  rw [silent] at mails
  cases mails

/-- A harmless write. -/
theorem AlertsSound.wrote (sound : AlertsSound a) (locked : Bool) {f : AlertDb → AlertDb}
    (harmless : Harmless f) {phase : ReportPhase} (silent : phase.mailing? = none)
    (knows : PhaseSound (a.took c (.write f) phase) c phase) :
    AlertsSound (a.wrote c locked f phase) := by
  unfold Alerts.wrote
  split
  · exact sound.took .begin (fun _ eq => by cases eq) trivial (apart_of_silent rfl)
  · refine sound.took (.write f) (fun g eq => ?_) knows (apart_of_silent silent)
    cases eq
    exact ⟨(sound.store.view c).closes (harmless.closes _), harmless.keeps _⟩

/-- The sweep of a report opens its transaction, locked out or not. -/
theorem AlertsSound.sweep (sound : AlertsSound a) (locked : Bool) (cutoffAt stampAt : Instant)
    (report : IncidentReport) : AlertsSound (a.sweep c locked cutoffAt stampAt (.swept report)) := by
  unfold Alerts.sweep
  split
  · exact sound.took .begin (fun _ eq => by cases eq) Store.inTransaction_begin (apart_of_silent rfl)
  · refine sound.took (.write _) (fun g eq => ?_) (Store.inTransaction_write _) (apart_of_silent rfl)
    cases eq
    have harmless := sweepStale_harmless cutoffAt stampAt
    exact ⟨(sound.store.view c).closes (harmless.closes _), harmless.keeps _⟩

/-- The look-up is in the transaction of the sweep. -/
theorem AlertsSound.lookup (sound : AlertsSound a) {report : IncidentReport}
    (phase : a.phases c = .swept report) : AlertsSound (a.lookup c report) := by
  have inside : a.store.InTransaction c := by
    have knows := sound.phases c
    rw [phase] at knows
    exact knows
  unfold Alerts.lookup
  split
  · exact sound.took .read (fun _ eq => by cases eq) trivial (apart_of_silent rfl)
  · next nothing =>
    refine sound.took .read (fun _ eq => by cases eq) ⟨Store.holds_read inside, ?_⟩
      (apart_of_silent rfl)
    rw [show (a.took c .read (.fresh report)).store.view c = a.store.view c from Store.view_read]
    exact noneOpen_of_findOpen nothing

/-- The insert is where the look-up found nothing: what the connection sees has not changed. -/
theorem AlertsSound.insert (sound : AlertsSound a) (locked : Bool) {report : IncidentReport}
    {recipients : List PyStr} (phase : a.phases c = .chosen report recipients) :
    AlertsSound (a.insert c locked report recipients) := by
  have knows := sound.phases c
  rw [phase] at knows
  obtain ⟨_, nothing, nodup⟩ := knows
  unfold Alerts.insert
  split
  · exact sound.wrote locked id_harmless rfl trivial
  · next opened db' eq =>
    obtain ⟨one, keeps⟩ := (sound.store.view c).insert nothing eq
    unfold Alerts.wrote
    split
    · exact sound.took .begin (fun _ eq => by cases eq) trivial (apart_of_silent rfl)
    · next unlocked =>
      have free : a.store.free c = true := by
        rw [Bool.or_eq_true, not_or] at unlocked
        simpa using unlocked.2
      obtain ⟨absent, here, _⟩ := openIncident_get eq
      have writes : (a.store.write c fun db => (openIncident report db).getD db).copyOf c =
          some db' := by
        rw [Store.copyOf_write_self _ free, eq, Option.getD_some]
      refine sound.took (.write _) (fun g same => ?_) ⟨nodup, ?_, db', writes, by simp [here]⟩
        (apart_of_silent rfl)
      · cases same
        simp only [eq, Option.getD_some]
        exact ⟨one, keeps⟩
      · have grown := sound.grows.view sound.store KeepsIncidents.refl free
        have same : (a.took c (.write fun db => (openIncident report db).getD db)
            (.inserted report recipients)).store.committed = a.store.committed := by
          simp [Alerts.took, Store.apply, Store.write, free]
        rw [same]
        by_contra taken
        exact grown _ taken absent

/-- A commit publishes the incident of a report, which then sends its emails. -/
theorem AlertsSound.commit (sound : AlertsSound a) :
    AlertsSound (a.took c .commit (Alerts.afterCommit (a.phases c))) := by
  have knows := sound.phases c
  rcases here : a.phases c with _ | report | ⟨report, key⟩ | report | ⟨report, recipients⟩ |
    ⟨report, recipients⟩ | ⟨report, recipients, emailed⟩ | _
  case inserted =>
    rw [here] at knows
    obtain ⟨nodup, absent, copy, writes, stored⟩ := knows
    refine sound.took .commit (fun _ eq => by cases eq) ⟨nodup, ?_, fun email _ sent => ?_⟩ ?_
    · rw [show (a.took c .commit (Alerts.afterCommit (.inserted report recipients))).store.committed =
        copy from Store.committed_commit_self writes]
      exact stored
    · exact sound.known _ sent absent
    · intro c' _ key mails mails'
      have other := sound.phases c'
      rcases there : a.phases c' with _ | _ | _ | _ | _ | _ | ⟨report', recipients', emailed'⟩ | _
      case mailing =>
        rw [there] at other mails'
        have same : report'.incidentId = report.incidentId :=
          Option.some.inj (mails'.trans mails.symm)
        rw [← same] at absent
        exact other.2.1 absent
      all_goals
        rw [there] at mails'
        cases mails'
  all_goals exact sound.took .commit (fun _ eq => by cases eq) trivial (apart_of_silent rfl)

/-- A connection that leaves its call. -/
theorem AlertsSound.leave (sound : AlertsSound a) : AlertsSound (a.setPhase c .ready) := by
  have phase_other : ∀ c', c' ≠ c → (a.setPhase c .ready).phases c' = a.phases c' := fun c' ne =>
    Function.update_of_ne ne ..
  have phase_self : (a.setPhase c .ready).phases c = .ready := Function.update_self ..
  refine ⟨sound.store, sound.grows, fun c' => ?_, fun one two ne key mails => ?_, sound.known,
    sound.once⟩
  · rcases eq_or_ne c' c with rfl | ne
    · rw [phase_self]
      trivial
    · rw [phase_other c' ne]
      exact sound.phases c'
  · rcases eq_or_ne one c with rfl | neOne
    · rw [phase_self] at mails
      cases mails
    · rw [phase_other one neOne] at mails
      rcases eq_or_ne two c with rfl | neTwo
      · rw [phase_self]
        exact fun mails' => by cases mails'
      · rw [phase_other two neTwo]
        exact sound.apart one two ne key mails

/-- A send takes the next recipient, who has not been sent to. -/
theorem AlertsSound.send (sound : AlertsSound a) (delivered : Bool) {report : IncidentReport}
    {email : PyStr} {recipients emailed : List PyStr}
    (phase : a.phases c = .mailing report (email :: recipients) emailed) :
    AlertsSound (a.send c delivered report email recipients emailed) := by
  have knows := sound.phases c
  rw [phase] at knows
  obtain ⟨nodup, stored, unsent⟩ := knows
  rw [List.nodup_cons] at nodup
  have phase_self : (a.send c delivered report email recipients emailed).phases c =
      .mailing report recipients (if delivered then emailed ++ [email] else emailed) :=
    Function.update_self ..
  have phase_other : ∀ c', c' ≠ c →
      (a.send c delivered report email recipients emailed).phases c' = a.phases c' := fun c' ne =>
    Function.update_of_ne ne ..
  have mails_other : ∀ c', c' ≠ c → (a.phases c').mailing? ≠ some report.incidentId := by
    intro c' ne
    refine sound.apart c c' ne.symm report.incidentId ?_
    rw [phase]
    rfl
  have in_outbox : ∀ {mail}, mail ∈ (a.send c delivered report email recipients emailed).outbox ↔
      mail ∈ a.outbox ∨ mail = (report.incidentId, email) := by
    intro mail
    simp [Alerts.send]
  refine ⟨sound.store, sound.grows, fun c' => ?_, fun one two ne key mails => ?_,
    fun mail member => ?_, ?_⟩
  · rcases eq_or_ne c' c with rfl | ne
    · rw [phase_self]
      refine ⟨nodup.2, stored, fun other member sent => ?_⟩
      rcases in_outbox.mp sent with before | now
      · exact unsent other (List.mem_cons_of_mem _ member) before
      · cases now
        exact nodup.1 member
    · rw [phase_other c' ne]
      have other := sound.phases c'
      rcases there : a.phases c' with _ | _ | _ | _ | _ | _ | ⟨report', recipients', emailed'⟩ | _
      case mailing =>
        rw [there] at other
        refine ⟨other.1, other.2.1, fun mail member sent => ?_⟩
        rcases in_outbox.mp sent with before | now
        · exact other.2.2 mail member before
        · apply mails_other c' ne
          rw [there]
          exact congrArg some (Prod.ext_iff.mp now).1
      all_goals
        rw [there] at other
        exact other
  · have mailing_eq : ∀ c', ((a.send c delivered report email recipients emailed).phases c').mailing? =
        (a.phases c').mailing? := by
      intro c'
      rcases eq_or_ne c' c with rfl | ne
      · rw [phase_self, phase]
        rfl
      · rw [phase_other c' ne]
    rw [mailing_eq] at mails ⊢
    exact sound.apart one two ne key mails
  · rcases in_outbox.mp member with before | rfl
    · exact sound.known mail before
    · exact stored
  · refine List.nodup_append.mpr ⟨sound.once, List.nodup_singleton _, ?_⟩
    rintro mail sent _ last rfl
    rw [List.mem_singleton.mp last] at sent
    exact unsent email List.mem_cons_self sent

theorem otherStatement_harmless {statement : OtherStatement} {f : AlertDb → AlertDb}
    (eq : statement.op = .write f) (db : AlertDb) : (f db).incidents = db.incidents := by
  cases statement with
  | write recipients =>
      cases eq
      rfl
  | begin => cases eq
  | select => cases eq
  | commit => cases eq
  | rollback => cases eq

/-- The code around a call touches no incident. -/
theorem AlertsSound.other (sound : AlertsSound a) (statement : OtherStatement)
    (outside : a.phases c = .ready ∨ (a.phases c).mailing? ≠ none) :
    AlertsSound (a.took c statement.op (a.phases c)) := by
  have writes : ∀ f, statement.op = .write f →
      OneOpen (f (a.store.view c)) ∧ KeepsIncidents (a.store.view c) (f (a.store.view c)) := by
    intro f eq
    have same := otherStatement_harmless eq (a.store.view c)
    unfold OneOpen KeepsIncidents
    rw [same]
    exact ⟨sound.store.view c, fun _ stored => stored⟩
  have grown := (sound.grows.apply (c := c) sound.store KeepsIncidents.refl KeepsIncidents.trans
    statement.op fun f eq => (writes f eq).2).2
  have knows := sound.phases c
  refine sound.took statement.op writes ?_ fun c' ne key mails => sound.apart c c' ne.symm key mails
  rcases here : a.phases c with _ | _ | _ | _ | _ | _ | ⟨report, recipients, emailed⟩ | _
  case ready => trivial
  case mailing =>
    rw [here] at knows
    exact ⟨knows.1, grown _ knows.2.1, knows.2.2⟩
  all_goals
    rw [here] at outside
    rcases outside with ready | mails
    · cases ready
    · exact absurd rfl mails

/-- The step lemma. -/
theorem alerts_sound_step (action : AlertAction) (next : Alerts) (sound : AlertsSound a)
    (step : alertMachine.step action a = some next) : AlertsSound next := by
  cases action with
  | report c report cutoffAt stampAt locked =>
      simp only [alertMachine] at step
      split at step
      · cases step
        exact sound.sweep locked cutoffAt stampAt report
      · cases step
  | lookup c =>
      simp only [alertMachine] at step
      split at step
      · next report phase =>
        cases step
        exact sound.lookup phase
      · cases step
  | bump c locked =>
      simp only [alertMachine] at step
      split at step
      · next report key phase =>
        cases step
        exact sound.wrote locked (bump_harmless report key) rfl trivial
      · cases step
  | recipients c =>
      simp only [alertMachine] at step
      split at step
      · next report phase =>
        cases step
        have knows := sound.phases c
        rw [phase] at knows
        refine sound.took .read (fun _ eq => by cases eq)
          ⟨Store.holds_read knows.1.inTransaction, ?_, activeRecipientsFor_nodup _ _⟩
          (apart_of_silent rfl)
        rw [show (a.took c .read (.chosen report
          (activeRecipientsFor report.category (a.store.view c)))).store.view c = a.store.view c
          from Store.view_read]
        exact knows.2
      · cases step
  | insert c locked =>
      simp only [alertMachine] at step
      split at step
      · next report recipients phase =>
        cases step
        exact sound.insert locked phase
      · cases step
  | commit c locked =>
      simp only [alertMachine] at step
      split at step
      · split at step
        · cases step
          exact sound.leave
        · cases step
          exact sound.commit
      · split at step
        · cases step
          exact sound.leave
        · cases step
          exact sound.commit
      · cases step
  | send c delivered =>
      simp only [alertMachine] at step
      split at step
      · next report email recipients emailed phase =>
        cases step
        exact sound.send delivered phase
      · cases step
  | note c locked =>
      simp only [alertMachine] at step
      split at step
      · next report emailed phase =>
        split at step
        · cases step
          exact sound.leave
        · cases step
          exact sound.wrote locked (noteEmailed_harmless report emailed) rfl trivial
      · cases step
  | resolve c category subject now locked =>
      simp only [alertMachine] at step
      split at step
      · cases step
        exact sound.wrote locked (resolveOpen_harmless category subject now) rfl trivial
      · cases step
  | list c cutoffAt stampAt locked =>
      simp only [alertMachine] at step
      split at step
      · cases step
        exact sound.wrote locked (sweepStale_harmless cutoffAt stampAt) rfl trivial
      · cases step
  | abort c =>
      cases step
      exact sound.leave
  | other c statement =>
      simp only [alertMachine] at step
      split at step
      · next phase =>
        cases step
        exact sound.other statement (.inl phase)
      · next phase =>
        cases step
        exact sound.other statement (.inr (by simp [phase, ReportPhase.mailing?]))
      · cases step

theorem AlertsSound.start {db : AlertDb} (one : OneOpen db) : AlertsSound (Alerts.start db) := by
  refine ⟨.start one, .start _ _, fun c => trivial, fun c c' _ key mails => ?_,
    fun mail member => ?_, List.nodup_nil⟩
  · cases mails
  · cases member

end

/-! ### Every interleaving -/

/-- In every state that any statements of any calls lead to, whoever looks sees at most one open
incident of a fingerprint; and the emails that were sent are of committed incidents, one for each
recipient of an incident. -/
theorem one_open_incident_mailed_once (db : AlertDb) (one : OneOpen db)
    (actions : List AlertAction) (last : Alerts)
    (run : alertMachine.run actions (Alerts.start db) = some last) :
    OneOpen last.store.committed ∧ (∀ c, OneOpen (last.store.view c)) ∧ last.outbox.Nodup ∧
      ∀ mail ∈ last.outbox, last.store.committed.incidents.get mail.1 ≠ none := by
  have sound : AlertsSound last := Machine.run_invariant
    (fun action _ next sound step => alerts_sound_step action next sound step) (.start one) run
  exact ⟨sound.store.committed, sound.store.view, sound.once, sound.known⟩

/-- A failure that two requests report, and two recipients. -/
def cqDown (now : Instant) (incidentId : PyStr) : IncidentReport :=
  ⟨py "cq_unreachable", py "cq", py "\x7b\x7d", now, incidentId⟩

def twoRecipients : AlertDb :=
  ⟨.empty, ⟨[(py "b@x", ⟨true, none⟩), (py "a@x", ⟨true, some [py "cq_unreachable"]⟩)],
    by decide⟩⟩

/-- The second report looks while the first holds the lock, and inserts after its commit. -/
def racingReports : List AlertAction :=
  [ .report 0 (cqDown 10 (py "i")) 10 10 false, .report 1 (cqDown 11 (py "j")) 11 11 false,
    .lookup 0, .lookup 1, .recipients 0, .recipients 1, .insert 0 false, .commit 0 false,
    .insert 1 false, .send 0 true, .send 0 true, .note 0 false, .commit 0 false ]

/-- The theorem in this race: the second report is refused its insert. -/
theorem one_open_incident_mailed_once_race :
    ∃ last, alertMachine.run racingReports (Alerts.start twoRecipients) = some last ∧
      last.store.committed.incidents.rows.map Prod.fst = [py "i"] ∧
      last.outbox = [(py "i", py "a@x"), (py "i", py "b@x")] ∧
      OneOpen last.store.committed ∧ last.outbox.Nodup := by
  obtain ⟨last, run⟩ := Option.isSome_iff_exists.mp
    (show (alertMachine.run racingReports (Alerts.start twoRecipients)).isSome = true by
      decide +kernel)
  have facts : (alertMachine.run racingReports (Alerts.start twoRecipients)).map (fun last =>
      (last.store.committed.incidents.rows.map Prod.fst, last.outbox)) =
        some ([py "i"], [(py "i", py "a@x"), (py "i", py "b@x")]) := by decide +kernel
  rw [run, Option.map_some, Option.some.injEq, Prod.mk.injEq] at facts
  have none_ : OneOpen twoRecipients := by
    intro key row key' row' stored
    cases stored
  obtain ⟨one, _, once, _⟩ :=
    one_open_incident_mailed_once twoRecipients none_ racingReports last run
  exact ⟨last, run, facts.1, facts.2, one, once⟩

end GhostPour.Alerting
