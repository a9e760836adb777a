/-
Module: GhostPour.Library.Transactions
Layer: Library
Purpose: The connections of one SQLite database, at the granularity of statements. The first
  statement that writes opens a transaction and takes the one write lock, which is kept until the
  connection commits or rolls back. A transaction that has read keeps its snapshot, and cannot take
  the lock once another one has committed. Outside a transaction a select reads what is committed.
Trusted boundary: human-reviewed spec
Main exports: Session, Store, StoreOp, Store.apply, Store.view, Store.free, Store.All.apply,
  Store.Grows.apply, Store.holds_apply_other
-/
import Mathlib

namespace GhostPour

/-- The transaction of a connection that does not hold the write lock. -/
inductive Session (δ : Type) where
  | idle
  | begun
  | reading (snapshot : δ) (version : Nat)

/-- What a connection reads that does not hold the write lock. -/
def Session.sees {δ : Type} (committed : δ) : Session δ → δ
  | .idle => committed
  | .begun => committed
  | .reading snapshot _ => snapshot

/-- A database with its connections: what is committed, how often something was, the connection that
holds the write lock with its copy, and the transactions of the others. -/
structure Store (ι δ : Type) where
  committed : δ
  version : Nat
  writer : Option (ι × δ)
  sessions : ι → Session δ

/-- A statement, as far as the transaction is concerned. -/
inductive StoreOp (δ : Type) where
  | begin
  | read
  | write (f : δ → δ)
  | commit
  | rollback

namespace Store

variable {ι δ : Type} [DecidableEq ι]

/-- Before any connection has begun. -/
def start (d : δ) : Store ι δ := ⟨d, 0, none, fun _ => .idle⟩

/-- The copy of the connection that holds the write lock. -/
def copyOf (s : Store ι δ) (c : ι) : Option δ :=
  s.writer.bind fun w => if w.1 = c then some w.2 else none

/-- What a connection reads. -/
def view (s : Store ι δ) (c : ι) : δ := (s.copyOf c).getD ((s.sessions c).sees s.committed)

/-- The connection holds the write lock, or can take it. -/
def free (s : Store ι δ) (c : ι) : Bool :=
  match s.writer with
  | some w => w.1 = c
  | none =>
      match s.sessions c with
      | .reading _ version => version = s.version
      | .begun => true
      | .idle => true

def setSession (s : Store ι δ) (c : ι) (session : Session δ) : Store ι δ :=
  { s with sessions := Function.update s.sessions c session }

/-- `BEGIN`. -/
def begin (s : Store ι δ) (c : ι) : Store ι δ :=
  match s.copyOf c, s.sessions c with
  | none, .idle => s.setSession c .begun
  | _, _ => s

/-- A select: a transaction that has not read yet fixes what it sees. -/
def read (s : Store ι δ) (c : ι) : Store ι δ :=
  match s.copyOf c, s.sessions c with
  | none, .begun => s.setSession c (.reading s.committed s.version)
  | _, _ => s

/-- A statement that writes. It opens a transaction in any case; locked out, it does nothing else. -/
def write (s : Store ι δ) (c : ι) (f : δ → δ) : Store ι δ :=
  if s.free c then { s.setSession c .idle with writer := some (c, f (s.view c)) } else s.begin c

def commit (s : Store ι δ) (c : ι) : Store ι δ :=
  match s.copyOf c with
  | some copy =>
      { s.setSession c .idle with committed := copy, version := s.version + 1, writer := none }
  | none => s.setSession c .idle

/-- A rollback, or the end of the connection. -/
def rollback (s : Store ι δ) (c : ι) : Store ι δ :=
  match s.copyOf c with
  | some _ => { s.setSession c .idle with writer := none }
  | none => s.setSession c .idle

/-- A statement of a connection. -/
def apply (s : Store ι δ) (c : ι) : StoreOp δ → Store ι δ
  | .begin => s.begin c
  | .read => s.read c
  | .write f => s.write c f
  | .commit => s.commit c
  | .rollback => s.rollback c

/-! ### What a connection sees -/

variable {s : Store ι δ} {c c' : ι}

theorem copyOf_eq_some {copy : δ} : s.copyOf c = some copy ↔ s.writer = some (c, copy) := by
  unfold copyOf
  rcases s.writer with _ | ⟨w, d⟩
  · simp
  · by_cases same : w = c <;> simp [same]

theorem view_of_copy {copy : δ} (writes : s.copyOf c = some copy) : s.view c = copy := by
  rw [view, writes, Option.getD_some]

theorem view_of_reading {snapshot : δ} {version : Nat} (noCopy : s.copyOf c = none)
    (reading : s.sessions c = .reading snapshot version) : s.view c = snapshot := by
  rw [view, noCopy, reading, Option.getD_none, Session.sees]

@[simp] theorem copyOf_setSession (session : Session δ) :
    (s.setSession c session).copyOf c' = s.copyOf c' := rfl

@[simp] theorem committed_setSession (session : Session δ) :
    (s.setSession c session).committed = s.committed := rfl

@[simp] theorem sessions_setSession_self (session : Session δ) :
    (s.setSession c session).sessions c = session := by
  simp [setSession]

theorem sessions_setSession_of_ne (session : Session δ) (ne : c' ≠ c) :
    (s.setSession c session).sessions c' = s.sessions c' := by
  simp [setSession, Function.update_of_ne ne]

/-- The connection holds the lock, or has read in its transaction: what it sees stays. -/
def Holds (s : Store ι δ) (c : ι) : Prop :=
  s.copyOf c ≠ none ∨ ∃ snapshot version, s.sessions c = .reading snapshot version

/-- The connection is in a transaction. -/
def InTransaction (s : Store ι δ) (c : ι) : Prop := s.copyOf c ≠ none ∨ s.sessions c ≠ .idle

theorem Holds.inTransaction (holds : s.Holds c) : s.InTransaction c := by
  rcases holds with writes | ⟨snapshot, version, reading⟩
  · exact .inl writes
  · right
    rw [reading]
    simp

/-- While the lock can be taken, no other connection holds it. -/
theorem copyOf_other_of_free (unlocked : s.free c = true) (ne : c' ≠ c) : s.copyOf c' = none := by
  rcases writer : s.writer with _ | ⟨w, d⟩
  · rw [copyOf, writer, Option.bind_none]
  · have own : w = c := by simpa [free, writer] using unlocked
    subst own
    simp [copyOf, writer, ne.symm]

theorem copyOf_write_self (f : δ → δ) (unlocked : s.free c = true) :
    (s.write c f).copyOf c = some (f (s.view c)) := by
  rw [copyOf_eq_some, write, if_pos unlocked]

theorem view_read : (s.read c).view c = s.view c := by
  unfold read
  split
  · next noCopy begun => simp [view, noCopy, begun, Session.sees]
  · rfl

theorem inTransaction_begin : (s.begin c).InTransaction c := by
  unfold begin
  split
  · exact .inr (by simp)
  · next other =>
    unfold InTransaction
    by_contra none
    rw [not_or, not_not, not_not] at none
    exact other none.1 none.2

/-- A statement that writes leaves its connection in a transaction, locked out or not. -/
theorem inTransaction_write (f : δ → δ) : (s.write c f).InTransaction c := by
  rcases unlocked : s.free c with _ | _
  · rw [write, if_neg (by simp [unlocked])]
    exact inTransaction_begin
  · exact .inl (by simp [copyOf_write_self f unlocked])

/-- After a select in a transaction what the connection sees stays. -/
theorem holds_read (open_ : s.InTransaction c) : (s.read c).Holds c := by
  unfold read
  split
  · exact .inr ⟨_, _, sessions_setSession_self _⟩
  · next other =>
    rcases copy : s.copyOf c with _ | d
    · rcases session : s.sessions c with _ | _ | ⟨snapshot, version⟩
      · rcases open_ with writes | inside
        · exact absurd copy writes
        · exact absurd session inside
      · exact absurd session (other copy)
      · exact .inr ⟨snapshot, version, session⟩
    · exact .inl (by simp [copy])

/-- Isolation: a statement of another connection leaves what a transaction sees, once it has read or
holds the lock. -/
theorem holds_apply_other (op : StoreOp δ) (holds : s.Holds c) (ne : c ≠ c') :
    (s.apply c' op).Holds c ∧ (s.apply c' op).view c = s.view c := by
  have kept : ∀ session, (s.setSession c' session).Holds c ∧
      (s.setSession c' session).view c = s.view c := by
    intro session
    unfold Holds view
    rw [copyOf_setSession, sessions_setSession_of_ne session ne]
    exact ⟨holds, rfl⟩
  -- without the lock, only the snapshot counts
  have released : ∀ (s' : Store ι δ), s.copyOf c = none → s'.copyOf c = none →
      s'.sessions c = s.sessions c → s'.Holds c ∧ s'.view c = s.view c := by
    intro s' before after same
    obtain ⟨snapshot, version, reading⟩ := holds.resolve_left (by simp [before])
    refine ⟨.inr ⟨snapshot, version, same.trans reading⟩, ?_⟩
    rw [view_of_reading before reading, view_of_reading after (same.trans reading)]
  cases op with
  | begin =>
      simp only [apply, begin]
      split
      · exact kept _
      · exact ⟨holds, rfl⟩
  | read =>
      simp only [apply, read]
      split
      · exact kept _
      · exact ⟨holds, rfl⟩
  | write f =>
      rcases unlocked : s.free c' with _ | _
      · simp only [apply, write, unlocked, Bool.false_eq_true, if_false, begin]
        split
        · exact kept _
        · exact ⟨holds, rfl⟩
      · refine released _ (copyOf_other_of_free unlocked ne) ?_ ?_
        · simp [apply, write, unlocked, copyOf, ne.symm]
        · simp [apply, write, unlocked, sessions_setSession_of_ne _ ne]
  | commit =>
      simp only [apply, commit]
      split
      · next copy writes =>
        have noCopy : s.copyOf c = none := by
          rw [copyOf_eq_some] at writes
          simp [copyOf, writes, ne.symm]
        exact released _ noCopy rfl (sessions_setSession_of_ne _ ne)
      · exact kept _
  | rollback =>
      simp only [apply, rollback]
      split
      · next copy writes =>
        have noCopy : s.copyOf c = none := by
          rw [copyOf_eq_some] at writes
          simp [copyOf, writes, ne.symm]
        exact released _ noCopy rfl (sessions_setSession_of_ne _ ne)
      · exact kept _

/-- While a connection holds the lock, no other one changes its copy or commits. -/
theorem copyOf_apply_other (op : StoreOp δ) {copy : δ} (writes : s.copyOf c = some copy)
    (ne : c ≠ c') :
    (s.apply c' op).copyOf c = some copy ∧ (s.apply c' op).committed = s.committed := by
  have writer := copyOf_eq_some.mp writes
  have noCopy : s.copyOf c' = none := by simp [copyOf, writer, ne]
  have begun : (s.begin c').copyOf c = some copy ∧ (s.begin c').committed = s.committed := by
    unfold begin
    split
    · exact ⟨writes, rfl⟩
    · exact ⟨writes, rfl⟩
  cases op with
  | begin => exact begun
  | read =>
      simp only [apply, read]
      split
      · exact ⟨writes, rfl⟩
      · exact ⟨writes, rfl⟩
  | write f =>
      have locked : s.free c' = false := by simp [free, writer, ne]
      simp only [apply, write, locked, Bool.false_eq_true, if_false]
      exact begun
  | commit =>
      simp only [apply, commit, noCopy]
      exact ⟨writes, rfl⟩
  | rollback =>
      simp only [apply, rollback, noCopy]
      exact ⟨writes, rfl⟩

/-- No other connection gives a connection the lock. -/
theorem copyOf_of_apply_other {op : StoreOp δ} {copy : δ}
    (writes : (s.apply c' op).copyOf c = some copy) (ne : c ≠ c') : s.copyOf c = some copy := by
  have begun : (s.begin c').copyOf c = s.copyOf c := by
    unfold begin
    split <;> rfl
  cases op with
  | begin => exact begun.symm.trans writes
  | read =>
      simp only [apply, read] at writes
      split at writes <;> exact writes
  | write f =>
      simp only [apply, write] at writes
      split at writes
      · simp [copyOf, ne.symm] at writes
      · exact begun.symm.trans writes
  | commit =>
      simp only [apply, commit] at writes
      split at writes
      · simp [copyOf] at writes
      · exact writes
  | rollback =>
      simp only [apply, rollback] at writes
      split at writes
      · simp [copyOf] at writes
      · exact writes

theorem copyOf_begin_self : (s.begin c).copyOf c = s.copyOf c := by
  unfold begin
  split <;> rfl

theorem copyOf_read_self : (s.read c).copyOf c = s.copyOf c := by
  unfold read
  split <;> rfl

theorem copyOf_commit_self : (s.commit c).copyOf c = none := by
  unfold commit
  split
  · rfl
  · next noCopy => exact noCopy

theorem copyOf_rollback_self : (s.rollback c).copyOf c = none := by
  unfold rollback
  split
  · rfl
  · next noCopy => exact noCopy

theorem committed_commit_self {copy : δ} (writes : s.copyOf c = some copy) :
    (s.commit c).committed = copy := by
  rw [commit, writes]

/-- A statement of another connection leaves a transaction open. -/
theorem inTransaction_apply_other (op : StoreOp δ) (open_ : s.InTransaction c) (ne : c ≠ c') :
    (s.apply c' op).InTransaction c := by
  by_cases holds : s.Holds c
  · exact (holds_apply_other op holds ne).1.inTransaction
  · unfold Holds at holds
    rw [not_or, not_not] at holds
    have session : s.sessions c ≠ .idle := open_.resolve_left (by simp [holds.1])
    right
    cases op with
    | begin =>
        simp only [apply, begin]
        split
        · rwa [sessions_setSession_of_ne _ ne]
        · exact session
    | read =>
        simp only [apply, read]
        split
        · rwa [sessions_setSession_of_ne _ ne]
        · exact session
    | write f =>
        simp only [apply, write]
        split
        · simpa [sessions_setSession_of_ne _ ne] using session
        · simp only [begin]
          split
          · rwa [sessions_setSession_of_ne _ ne]
          · exact session
    | commit =>
        simp only [apply, commit]
        split
        · simpa [sessions_setSession_of_ne _ ne] using session
        · rwa [sessions_setSession_of_ne _ ne]
    | rollback =>
        simp only [apply, rollback]
        split
        · simpa [sessions_setSession_of_ne _ ne] using session
        · rwa [sessions_setSession_of_ne _ ne]

/-! ### Invariants -/

/-- What is committed, what is being written and every snapshot meet a condition; a snapshot of the
current version is what is committed. -/
structure All (I : δ → Prop) (s : Store ι δ) : Prop where
  committed : I s.committed
  copy : ∀ c copy, s.writer = some (c, copy) → I copy
  snapshot : ∀ c snapshot version, s.sessions c = .reading snapshot version → I snapshot
  current : ∀ c snapshot version, s.sessions c = .reading snapshot version →
    version ≤ s.version ∧ (version = s.version → snapshot = s.committed)

variable {I : δ → Prop}

omit [DecidableEq ι] in
theorem All.start {d : δ} (holds : I d) : (Store.start (ι := ι) d).All I := by
  refine ⟨holds, ?_, ?_, ?_⟩
  · intro c copy writes
    cases writes
  · intro c snapshot version reading
    cases reading
  · intro c snapshot version reading
    cases reading

theorem All.view (all : s.All I) (c : ι) : I (s.view c) := by
  rcases copy : s.copyOf c with _ | d
  · unfold Store.view
    rw [copy, Option.getD_none]
    rcases session : s.sessions c with _ | _ | ⟨snapshot, version⟩
    · exact all.committed
    · exact all.committed
    · exact all.snapshot c snapshot version session
  · rw [view_of_copy copy]
    exact all.copy c d (copyOf_eq_some.mp copy)

/-- A connection that takes the lock has seen what is committed. -/
theorem All.view_of_free (all : s.All I) (unlocked : s.free c = true) (noCopy : s.copyOf c = none) :
    s.view c = s.committed := by
  unfold Store.view
  rw [noCopy, Option.getD_none]
  have noWriter : s.writer = none := by
    rcases writer : s.writer with _ | ⟨w, d⟩
    · rfl
    · unfold free at unlocked
      rw [writer] at unlocked
      have own : w = c := by simpa using unlocked
      subst own
      simp [copyOf, writer] at noCopy
  rcases session : s.sessions c with _ | _ | ⟨snapshot, version⟩
  · rfl
  · rfl
  · unfold free at unlocked
    rw [noWriter, session] at unlocked
    have now : version = s.version := by simpa using unlocked
    exact (all.current c snapshot version session).2 now

theorem All.setSession (all : s.All I) {session : Session δ}
    (fresh : ∀ snapshot version, session = .reading snapshot version →
      snapshot = s.committed ∧ version = s.version) :
    (s.setSession c session).All I := by
  have cases_ : ∀ other snapshot version,
      (s.setSession c session).sessions other = .reading snapshot version →
        snapshot = s.committed ∧ version = s.version ∨
          s.sessions other = .reading snapshot version := by
    intro other snapshot version reading
    rcases eq_or_ne other c with rfl | ne
    · rw [sessions_setSession_self] at reading
      exact .inl (fresh snapshot version reading)
    · rw [sessions_setSession_of_ne session ne] at reading
      exact .inr reading
  refine ⟨all.committed, all.copy, fun other snapshot version reading => ?_,
    fun other snapshot version reading => ?_⟩
  · rcases cases_ other snapshot version reading with ⟨rfl, _⟩ | before
    · exact all.committed
    · exact all.snapshot other snapshot version before
  · rcases cases_ other snapshot version reading with ⟨rfl, rfl⟩ | before
    · exact ⟨le_rfl, fun _ => rfl⟩
    · exact all.current other snapshot version before

/-- The invariant rule: a statement keeps what the writes keep. -/
theorem All.apply (all : s.All I) (op : StoreOp δ)
    (writes : ∀ f, op = .write f → s.free c = true → I (f (s.view c))) : (s.apply c op).All I := by
  have idle : (s.setSession c .idle).All I := all.setSession fun _ _ eq => (by cases eq)
  have begun : (s.begin c).All I := by
    unfold begin
    split
    · exact all.setSession fun _ _ eq => (by cases eq)
    · exact all
  cases op with
  | begin => exact begun
  | read =>
      simp only [Store.apply, read]
      split
      · refine all.setSession fun snapshot version eq => ?_
        cases eq
        exact ⟨rfl, rfl⟩
      · exact all
  | write f =>
      simp only [Store.apply, write]
      split
      · next unlocked =>
        refine ⟨idle.committed, fun other copy eq => ?_, idle.snapshot, idle.current⟩
        cases eq
        exact writes f rfl unlocked
      · exact begun
  | commit =>
      simp only [Store.apply, commit]
      split
      · next copy writing =>
        refine ⟨all.copy c copy (copyOf_eq_some.mp writing), fun _ _ eq => (by cases eq),
          idle.snapshot, fun other snapshot version reading => ?_⟩
        have old := (idle.current other snapshot version reading).1
        refine ⟨Nat.le_succ_of_le old, fun now => absurd old ?_⟩
        rw [show version = s.version + 1 from now]
        exact Nat.not_succ_le_self _
      · exact idle
  | rollback =>
      simp only [Store.apply, rollback]
      split
      · exact ⟨idle.committed, fun _ _ eq => (by cases eq), idle.snapshot, idle.current⟩
      · exact idle

/-! ### What only grows -/

/-- What is being written extends what is committed, which extends every snapshot. -/
structure Grows (R : δ → δ → Prop) (s : Store ι δ) : Prop where
  copy : ∀ c copy, s.writer = some (c, copy) → R s.committed copy
  snapshot : ∀ c snapshot version, s.sessions c = .reading snapshot version →
    R snapshot s.committed

variable {R : δ → δ → Prop}

omit [DecidableEq ι] in
theorem Grows.start (R : δ → δ → Prop) (d : δ) : (Store.start (ι := ι) d).Grows R := by
  constructor
  · intro c copy writes
    cases writes
  · intro c snapshot version reading
    cases reading

/-- A connection that can take the lock sees an extension of what is committed. -/
theorem Grows.view (grows : s.Grows R) (all : s.All I) (refl : ∀ d, R d d)
    (unlocked : s.free c = true) : R s.committed (s.view c) := by
  rcases writing : s.copyOf c with _ | copy
  · rw [all.view_of_free unlocked writing]
    exact refl _
  · rw [view_of_copy writing]
    exact grows.copy c copy (copyOf_eq_some.mp writing)

theorem Grows.setSession (grows : s.Grows R) (refl : ∀ d, R d d) {session : Session δ}
    (fresh : ∀ snapshot version, session = .reading snapshot version → snapshot = s.committed) :
    (s.setSession c session).Grows R := by
  refine ⟨grows.copy, fun other snapshot version reading => ?_⟩
  rcases eq_or_ne other c with rfl | ne
  · rw [sessions_setSession_self] at reading
    rw [fresh snapshot version reading]
    exact refl _
  · rw [sessions_setSession_of_ne session ne] at reading
    exact grows.snapshot other snapshot version reading

/-- A statement keeps that, when the writes extend what they see, and extends what is committed. -/
theorem Grows.apply (grows : s.Grows R) (all : s.All I) (refl : ∀ d, R d d)
    (trans : ∀ {d d' d''}, R d d' → R d' d'' → R d d'') (op : StoreOp δ)
    (writes : ∀ f, op = .write f → R (s.view c) (f (s.view c))) :
    (s.apply c op).Grows R ∧ R s.committed (s.apply c op).committed := by
  have idle : (s.setSession c .idle).Grows R := grows.setSession refl fun _ _ eq => (by cases eq)
  have begun : (s.begin c).Grows R ∧ R s.committed (s.begin c).committed := by
    unfold begin
    split
    · exact ⟨grows.setSession refl fun _ _ eq => (by cases eq), refl _⟩
    · exact ⟨grows, refl _⟩
  cases op with
  | begin => exact begun
  | read =>
      simp only [Store.apply, read]
      split
      · refine ⟨grows.setSession refl fun snapshot version eq => ?_, refl _⟩
        cases eq
        rfl
      · exact ⟨grows, refl _⟩
  | write f =>
      simp only [Store.apply, write]
      split
      · next unlocked =>
        refine ⟨⟨fun other copy eq => ?_, idle.snapshot⟩, refl _⟩
        cases eq
        exact trans (grows.view all refl unlocked) (writes f rfl)
      · exact begun
  | commit =>
      simp only [Store.apply, commit]
      split
      · next copy writing =>
        have extends_ := grows.copy c copy (copyOf_eq_some.mp writing)
        exact ⟨⟨fun _ _ eq => (by cases eq), fun other snapshot version reading =>
          trans (idle.snapshot other snapshot version reading) extends_⟩, extends_⟩
      · exact ⟨idle, refl _⟩
  | rollback =>
      simp only [Store.apply, rollback]
      split
      · exact ⟨⟨fun _ _ eq => (by cases eq), idle.snapshot⟩, refl _⟩
      · exact ⟨idle, refl _⟩

end Store

end GhostPour
