/-
Module: GhostPour.Budget.Proofs.SpendConservation
Layer: Proof
Purpose: The spend of anonymous installs over any run of logging, expiring, deleting and signing up:
  what a check computes is what was ever logged, as long as no statement meets a call between its
  reads and its writes and nothing is logged for an account that is gone.
Trusted boundary: none
Main exports: SpendState.everLogged, SpendState.loggedToday, SpendAction.Undisturbed,
  TablesSound, anonymous_spend_conserved
-/
import GhostPour.Budget.Proofs.CarryLedger

namespace GhostPour.Budget

/-! ### What was logged -/

/-- The row is of an account of this install, in this app. -/
def UsageRow.ownedBy (created : PyStr → Option PyStr) (sub app : PyStr) (row : UsageRow) : Bool :=
  created row.userId = some sub ∧ row.appId = some app

/-- The row is of an anonymous account, in this app and of this day. -/
def UsageRow.anonymousOn (created : PyStr → Option PyStr) (app : PyStr) (day : Nat)
    (row : UsageRow) : Bool :=
  row.appId = some app ∧ row.requestTimestamp.day = day ∧
    ((created row.userId).map isAnonymous).getD false = true

/-- The cost ever logged for an install and an app. -/
def SpendState.everLogged (s : SpendState) (sub app : PyStr) : ℚ :=
  sumWhere (UsageRow.ownedBy s.created sub app) UsageRow.cost s.logged

/-- The anonymous cost logged in an app during the current UTC day. -/
def SpendState.loggedToday (s : SpendState) (app : PyStr) : ℚ :=
  sumWhere (UsageRow.anonymousOn s.created app s.now.day) UsageRow.cost s.logged

/-! ### The condition on a step -/

/-- What a deletion is about to carry for an app is what it is about to purge; a deletion that began
on an earlier day purges nothing of today and writes over no carry of today. -/
structure Carries (s : SpendState) (request : DeleteRequest) (credits : List Credit)
    (sub app : PyStr) : Prop where
  lifetime : creditOn Credit.total app credits = spentOn request.userId app s.db.usageLog
  sameDay : request.day = s.now.day → creditOn Credit.today app credits =
    spentSince s.now.dayStart request.userId app s.db.usageLog
  earlier : request.day ≠ s.now.day →
    spentSince s.now.dayStart request.userId app s.db.usageLog = 0 ∧
      (s.db.spendCarry.get (sub, app)).bind Carry.day ≠ some s.now.day

instance (s : SpendState) (request : DeleteRequest) (credits : List Credit) (sub app : PyStr) :
    Decidable (Carries s request credits sub app) :=
  decidable_of_iff (_ ∧ _ ∧ _) ⟨fun ⟨a, b, c⟩ => ⟨a, b, c⟩, fun ⟨a, b, c⟩ => ⟨a, b, c⟩⟩

/-- A deletion of an anonymous account carries what it purges, and removes the account only when
nothing is left that it does not carry. -/
structure DeleteRequest.Undisturbed (request : DeleteRequest) (credits : List Credit)
    (s : SpendState) : Prop where
  carries : ∀ sub ∈ request.sub, ∀ app ∈ appsInScope request.scope,
    Carries s request credits sub app
  leaves : request.sub ≠ none → accountRemoved request.userId request.scope s.db = true →
    ∀ app ∈ carryApps, app ∉ appsInScope request.scope →
      spentOn request.userId app s.db.usageLog = 0

instance (request : DeleteRequest) (credits : List Credit) (s : SpendState) :
    Decidable (request.Undisturbed credits s) :=
  decidable_of_iff (_ ∧ _) ⟨fun ⟨a, b⟩ => ⟨a, b⟩, fun ⟨a, b⟩ => ⟨a, b⟩⟩

/-- A deletion that is about to write finds the rows it summed. -/
def DeleteCall.Undisturbed (s : SpendState) : DeleteCall → Prop
  | .reading request [] => request.Undisturbed [] s
  | .writing request credit apps =>
      request.Undisturbed ((DeleteCall.writing request credit apps).credits s.db.usageLog) s
  | _ => True

instance (s : SpendState) : (call : DeleteCall) → Decidable (call.Undisturbed s)
  | .idle => isTrue trivial
  | .reading _ [] => inferInstanceAs (Decidable (DeleteRequest.Undisturbed _ _ _))
  | .reading _ (_ :: _) => isTrue trivial
  | .summing _ _ _ _ => isTrue trivial
  | .writing _ _ _ => inferInstanceAs (Decidable (DeleteRequest.Undisturbed _ _ _))

/-- An expiry that is about to carry finds the rows it summed. -/
def ExpireCall.Undisturbed (s : SpendState) : ExpireCall → Prop
  | .named cutoff userId app spent (some _) _ =>
      spent = sumWhere (UsageRow.expires cutoff userId app) UsageRow.cost s.db.usageLog
  | _ => True

instance (s : SpendState) : (call : ExpireCall) → Decidable (call.Undisturbed s)
  | .idle => isTrue trivial
  | .pairs _ _ => isTrue trivial
  | .summed _ _ _ _ _ => isTrue trivial
  | .named _ _ _ _ none _ => isTrue trivial
  | .named _ _ _ _ (some _) _ => inferInstanceAs (Decidable (_ = _))

/-- The condition on a step. A logged cost is not negative, and a cost of an anonymous account in a
carried app finds the account; a deletion and an expiry find the rows they summed. -/
def SpendAction.Undisturbed : SpendAction → SpendState → Prop
  | .log userId app cost _ _, s =>
      0 ≤ cost.getD 0 ∧
        (cost.getD 0 ≠ 0 → (∃ a ∈ carryApps, app = some a) →
          ((s.created userId).map isAnonymous).getD false = true →
          (s.db.users.get userId).isSome = true)
  | .deleteWrite call, s => (s.deletes call).Undisturbed s
  | .expireWrite call, s => (s.expires call).Undisturbed s
  | _, _ => True

instance : (action : SpendAction) → (s : SpendState) → Decidable (action.Undisturbed s)
  | .log _ _ _ _ _, _ => inferInstanceAs (Decidable (_ ∧ _))
  | .deleteWrite call, s => inferInstanceAs (Decidable ((s.deletes call).Undisturbed s))
  | .expireWrite call, s => inferInstanceAs (Decidable ((s.expires call).Undisturbed s))
  | .tick _, _ | .signUp _ _ _, _ | .join _ _, _ | .deleteStart _ _ _ _, _ | .deleteTotal _, _
  | .deleteToday _, _ | .expireStart _, _ | .expireSelect _ _, _ | .expireSum _, _
  | .expireName _, _ => isTrue trivial

/-! ### What holds between any two statements -/

/-- The tables and the account of what was spent. -/
structure TablesSound (s : SpendState) : Prop where
  identified : ∀ userId user, s.db.users.get userId = some user →
    s.created userId = some user.appleSub
  unique : ∀ userId other user user', s.db.users.get userId = some user →
    s.db.users.get other = some user' → user.appleSub = user'.appleSub → userId = other
  known : ∀ row ∈ s.logged,
    s.created row.userId ≠ none ∧ 0 ≤ row.cost ∧ row.requestTimestamp ≤ s.now
  kept : ∀ row ∈ s.db.usageLog, row ∈ s.logged
  live : ∀ row ∈ s.db.usageLog, ∀ app ∈ carryApps, row.appId = some app → row.cost ≠ 0 →
    ∀ sub, s.created row.userId = some sub → isAnonymous sub = true →
      (s.db.users.get row.userId).isSome = true
  lifetime : ∀ sub, isAnonymous sub = true → ∀ app ∈ carryApps,
    sumWhere (UsageRow.ownedBy s.created sub app) UsageRow.cost s.db.usageLog +
      carriedFor sub app s.db.spendCarry = s.everLogged sub app
  daily : ∀ app ∈ carryApps,
    sumWhere (UsageRow.anonymousOn s.created app s.now.day) UsageRow.cost s.db.usageLog +
      carriedToday app s.now.day s.db.spendCarry = s.loggedToday app
  dated : ∀ key c day, s.db.spendCarry.get key = some c → c.day = some day → day ≤ s.now.day

/-- What a call read of an account: it is anonymous, or it is not or is gone. -/
structure Names (s : SpendState) (userId : PyStr) (sub : Option PyStr) : Prop where
  created : s.created userId ≠ none
  named : ∀ x, sub = some x → s.created userId = some x ∧ isAnonymous x = true
  gone : sub = none → ∀ x, s.created userId = some x → isAnonymous x = true →
    s.db.users.get userId = none

/-- A deletion names an account, and its day is no later than today. -/
structure DeleteRequest.Known (request : DeleteRequest) (s : SpendState) : Prop where
  names : Names s request.userId request.sub
  past : request.day ≤ s.now.day

/-- A deletion under way sums the apps of its scope. -/
def DeleteCall.Known (s : SpendState) : DeleteCall → Prop
  | .idle => True
  | .reading request apps => request.Known s ∧ ∀ app ∈ apps, app ∈ appsInScope request.scope
  | .summing request app _ apps =>
      request.Known s ∧ ∀ a ∈ app :: apps, a ∈ appsInScope request.scope
  | .writing request credit apps =>
      request.Known s ∧ ∀ a ∈ credit.appId :: apps, a ∈ appsInScope request.scope

/-- A pair of a batch: an account that was created, and an app that is carried. -/
def Listed (s : SpendState) (pair : PyStr × PyStr) : Prop :=
  s.created pair.1 ≠ none ∧ pair.2 ∈ carryApps

/-- An expiry under way takes no row of today. -/
def ExpireCall.Known (s : SpendState) : ExpireCall → Prop
  | .idle => True
  | .pairs cutoff batch => cutoff ≤ s.now.dayStart ∧ ∀ pair ∈ batch, Listed s pair
  | .summed cutoff userId app _ batch =>
      cutoff ≤ s.now.dayStart ∧ Listed s (userId, app) ∧ ∀ pair ∈ batch, Listed s pair
  | .named cutoff userId app _ sub batch =>
      cutoff ≤ s.now.dayStart ∧ app ∈ carryApps ∧ Names s userId sub ∧
        ∀ pair ∈ batch, Listed s pair

/-- All of it. -/
structure SpendSound (s : SpendState) : Prop where
  tables : TablesSound s
  deleting : ∀ call, (s.deletes call).Known s
  expiring : ∀ call, (s.expires call).Known s

/-! ### What later states keep -/

/-- The state has only moved on: no account changes its `apple_sub` and none comes back. -/
structure Later (s s' : SpendState) : Prop where
  now : s.now ≤ s'.now
  created : ∀ userId sub, s.created userId = some sub → s'.created userId = some sub
  gone : ∀ userId, s.created userId ≠ none → s.db.users.get userId = none →
    s'.db.users.get userId = none

section
variable {s s' : SpendState}

theorem Later.created_ne (later : Later s s') {userId : PyStr} (known : s.created userId ≠ none) :
    s'.created userId ≠ none := by
  obtain ⟨sub, eq⟩ := Option.ne_none_iff_exists'.mp known
  rw [later.created userId sub eq]
  exact Option.some_ne_none sub

theorem Later.created_eq (later : Later s s') {userId : PyStr} (known : s.created userId ≠ none) :
    s'.created userId = s.created userId := by
  obtain ⟨sub, eq⟩ := Option.ne_none_iff_exists'.mp known
  rw [eq, later.created userId sub eq]

theorem Names.later {userId : PyStr} {sub : Option PyStr} (names : Names s userId sub)
    (later : Later s s') : Names s' userId sub := by
  have same := later.created_eq names.created
  refine ⟨later.created_ne names.created, fun x eq => ?_, fun eq x created anonymous => ?_⟩
  · rw [same]
    exact names.named x eq
  · rw [same] at created
    exact later.gone userId names.created (names.gone eq x created anonymous)

theorem DeleteCall.Known.later {state : DeleteCall} (known : state.Known s) (later : Later s s') :
    state.Known s' := by
  have request : ∀ r : DeleteRequest, r.Known s → r.Known s' := fun r known =>
    ⟨known.names.later later, le_trans known.past (Instant.day_mono later.now)⟩
  cases state with
  | idle => trivial
  | reading r apps => exact ⟨request r known.1, known.2⟩
  | summing r app total apps => exact ⟨request r known.1, known.2⟩
  | writing r credit apps => exact ⟨request r known.1, known.2⟩

theorem dayStart_mono {s t : Instant} (le : s ≤ t) : s.dayStart ≤ t.dayStart :=
  Nat.mul_le_mul_right _ (Instant.day_mono le)

theorem ExpireCall.Known.later {state : ExpireCall} (known : state.Known s) (later : Later s s') :
    state.Known s' := by
  have day := dayStart_mono later.now
  have listed : ∀ pair, Listed s pair → Listed s' pair := fun pair listed =>
    ⟨later.created_ne listed.1, listed.2⟩
  cases state with
  | idle => trivial
  | pairs cutoff batch =>
      exact ⟨le_trans known.1 day, fun pair member => listed pair (known.2 pair member)⟩
  | summed cutoff userId app spent batch =>
      obtain ⟨old, here, rest⟩ := known
      exact ⟨le_trans old day, listed _ here, fun pair member => listed pair (rest pair member)⟩
  | named cutoff userId app spent sub batch =>
      obtain ⟨old, carried, names, rest⟩ := known
      exact ⟨le_trans old day, carried, names.later later,
        fun pair member => listed pair (rest pair member)⟩

/-- A step that moves no call keeps what is known of the calls. -/
theorem SpendSound.of_tables (sound : SpendSound s) (tables : TablesSound s') (later : Later s s')
    (deletes : s'.deletes = s.deletes) (expires : s'.expires = s.expires) : SpendSound s' where
  tables := tables
  deleting call := by
    rw [deletes]
    exact (sound.deleting call).later later
  expiring call := by
    rw [expires]
    exact (sound.expiring call).later later

/-- A step of a deletion that writes nothing. -/
theorem SpendSound.setDelete (sound : SpendSound s) (call : Nat) {state : DeleteCall}
    (known : state.Known s) : SpendSound (s.setDelete call state) := by
  refine ⟨⟨sound.tables.identified, sound.tables.unique, sound.tables.known, sound.tables.kept,
    sound.tables.live, sound.tables.lifetime, sound.tables.daily, sound.tables.dated⟩,
    fun other => ?_, fun other => (sound.expiring other).later ⟨le_refl _, fun _ _ h => h,
      fun _ _ h => h⟩⟩
  have same : Later s (s.setDelete call state) := ⟨le_refl _, fun _ _ h => h, fun _ _ h => h⟩
  rcases eq_or_ne other call with rfl | ne
  · simp only [SpendState.setDelete, Function.update_self]
    exact known.later same
  · simp only [SpendState.setDelete, Function.update_of_ne ne]
    exact (sound.deleting other).later same

/-- A step of an expiry that writes nothing. -/
theorem SpendSound.setExpire (sound : SpendSound s) (call : Nat) {state : ExpireCall}
    (known : state.Known s) : SpendSound (s.setExpire call state) := by
  have same : Later s (s.setExpire call state) := ⟨le_refl _, fun _ _ h => h, fun _ _ h => h⟩
  refine ⟨⟨sound.tables.identified, sound.tables.unique, sound.tables.known, sound.tables.kept,
    sound.tables.live, sound.tables.lifetime, sound.tables.daily, sound.tables.dated⟩,
    fun other => (sound.deleting other).later same, fun other => ?_⟩
  rcases eq_or_ne other call with rfl | ne
  · simp only [SpendState.setExpire, Function.update_self]
    exact known.later same
  · simp only [SpendState.setExpire, Function.update_of_ne ne]
    exact (sound.expiring other).later same

/-- The account of an identified user. -/
theorem TablesSound.names (sound : TablesSound s) {userId : PyStr}
    (created : s.created userId ≠ none) : Names s userId (anonymousSub userId s.db) := by
  unfold anonymousSub
  rcases stored : s.db.users.get userId with _ | user
  · refine ⟨created, fun x eq => ?_, fun _ _ _ _ => stored⟩
    cases eq
  · have own := sound.identified userId user stored
    rw [Option.map_some, Option.filter_some]
    split
    · next anonymous =>
      refine ⟨created, fun x eq => ?_, fun none => (by cases none)⟩
      cases eq
      exact ⟨own, anonymous⟩
    · next signedIn =>
      refine ⟨created, fun x eq => (by cases eq), fun _ x eq anonymous => ?_⟩
      rw [own] at eq
      cases eq
      exact absurd anonymous signedIn

/-- The carried rows of an account that is gone cost nothing. -/
theorem TablesSound.gone_free (sound : TablesSound s) {userId : PyStr} (names : Names s userId none)
    {row : UsageRow} (member : row ∈ s.db.usageLog) (own : row.userId = userId) {app sub : PyStr}
    (carried : app ∈ carryApps) (inApp : row.appId = some app)
    (created : s.created row.userId = some sub) (anonymous : isAnonymous sub = true) :
    row.cost = 0 := by
  by_contra cost
  have live := sound.live row member app carried inApp cost sub created anonymous
  rw [own] at created live
  rw [names.gone rfl sub created anonymous] at live
  cases live

theorem TablesSound.cost_nonneg (sound : TablesSound s) :
    ∀ row ∈ s.db.usageLog, 0 ≤ row.cost :=
  fun row member => (sound.known row (sound.kept row member)).2.1

end

/-! ### Signing up and logging -/

section
variable {s s' : SpendState}

/-- The sums over rows of known accounts do not see a new account. -/
theorem sumWhere_created {rows : List UsageRow} {created created' : PyStr → Option PyStr}
    (same : ∀ row ∈ rows, created' row.userId = created row.userId) :
    (∀ sub app, sumWhere (UsageRow.ownedBy created' sub app) UsageRow.cost rows =
        sumWhere (UsageRow.ownedBy created sub app) UsageRow.cost rows) ∧
      ∀ app day, sumWhere (UsageRow.anonymousOn created' app day) UsageRow.cost rows =
        sumWhere (UsageRow.anonymousOn created app day) UsageRow.cost rows := by
  constructor
  · intro sub app
    refine sumWhere_congr fun row member _ => ?_
    rw [UsageRow.ownedBy, UsageRow.ownedBy, same row member]
  · intro app day
    refine sumWhere_congr fun row member _ => ?_
    rw [UsageRow.anonymousOn, UsageRow.anonymousOn, same row member]

theorem SpendSound.signUp (sound : SpendSound s) {userId sub : PyStr} {exclude : Bool}
    (step : s.signUp userId sub exclude = some s') : SpendSound s' := by
  obtain ⟨⟨fresh, single⟩, eq⟩ := Option.ite_none_right_eq_some.mp step
  cases eq
  have tables := sound.tables
  have absent : s.db.users.get userId = none := by
    by_contra present
    obtain ⟨user, stored⟩ := Option.ne_none_iff_exists'.mp present
    rw [tables.identified userId user stored] at fresh
    cases fresh
  have others : ∀ id, id ≠ userId →
      (s.db.users.upsert userId ⟨sub, exclude⟩ fun _ => ⟨sub, exclude⟩).get id =
        s.db.users.get id :=
    fun id ne => Table.get_upsert_of_ne _ _ _ ne
  have own : (s.db.users.upsert userId ⟨sub, exclude⟩ fun _ => ⟨sub, exclude⟩).get userId =
      some ⟨sub, exclude⟩ := by
    rw [Table.get_upsert_self, absent]
    rfl
  have unused : ∀ user id, s.db.users.get id = some user → user.appleSub ≠ sub :=
    fun user id stored => single (id, user) (Table.mem_of_get stored)
  have known : ∀ row ∈ s.logged, row.userId ≠ userId := by
    rintro row member rfl
    exact (tables.known row member).1 fresh
  have created : ∀ row ∈ s.logged,
      Function.update s.created userId (some sub) row.userId = s.created row.userId :=
    fun row member => Function.update_of_ne (known row member) _ _
  have logged := sumWhere_created created
  have usage := sumWhere_created fun row member => created row (tables.kept row member)
  refine sound.of_tables ?_ ⟨le_refl _, ?_, ?_⟩ rfl rfl
  · refine ⟨?_, ?_, ?_, tables.kept, ?_, ?_, ?_, tables.dated⟩
    · intro id user stored
      rcases eq_or_ne id userId with rfl | ne
      · rw [own] at stored
        cases stored
        exact Function.update_self _ _ _
      · rw [others id ne] at stored
        simp only [Function.update_of_ne ne]
        exact tables.identified id user stored
    · intro id other user user' stored stored' same
      rcases eq_or_ne id userId with rfl | ne
      · rcases eq_or_ne other id with rfl | ne'
        · rfl
        · rw [own] at stored
          rw [others other ne'] at stored'
          cases stored
          exact absurd same.symm (unused user' other stored')
      · rcases eq_or_ne other userId with rfl | ne'
        · rw [own] at stored'
          rw [others id ne] at stored
          cases stored'
          exact absurd same (unused user id stored)
        · rw [others id ne] at stored
          rw [others other ne'] at stored'
          exact tables.unique id other user user' stored stored' same
    · intro row member
      refine ⟨fun gone => ?_, (tables.known row member).2⟩
      exact (tables.known row member).1 ((created row member).symm.trans gone)
    · intro row member app carried inApp cost x named anonymous
      have logged := tables.kept row member
      have live := tables.live row member app carried inApp cost x
        ((created row logged).symm.trans named) anonymous
      rwa [← others row.userId (known row logged)] at live
    · intro x anonymous app carried
      exact (congrArg (· + _) (usage.1 x app)).trans
        ((tables.lifetime x anonymous app carried).trans (logged.1 x app).symm)
    · intro app carried
      exact (congrArg (· + _) (usage.2 app _)).trans
        ((tables.daily app carried).trans (logged.2 app _).symm)
  · intro id x named
    rcases eq_or_ne id userId with rfl | ne
    · rw [fresh] at named
      cases named
    · simp only [Function.update_of_ne ne]
      exact named
  · intro id named gone
    rcases eq_or_ne id userId with rfl | ne
    · exact absurd fresh named
    · exact (others id ne).trans gone

theorem SpendSound.log (sound : SpendSound s) {userId : PyStr} {app case ipHash : Option PyStr}
    {cost : Option ℚ} (met : (SpendAction.log userId app cost case ipHash).Undisturbed s)
    (step : s.log userId app cost case ipHash = some s') : SpendSound s' := by
  obtain ⟨created, eq⟩ := Option.ite_none_left_eq_some.mp step
  cases eq
  have tables := sound.tables
  refine sound.of_tables ⟨tables.identified, tables.unique, ?_, ?_, ?_, ?_, ?_, tables.dated⟩
    ⟨le_refl _, fun _ _ h => h, fun _ _ h => h⟩ rfl rfl
  · intro row member
    rcases List.mem_append.mp member with old | new
    · exact tables.known row old
    · rw [List.mem_singleton.mp new]
      exact ⟨created, met.1, le_refl _⟩
  · intro row member
    rcases List.mem_append.mp member with old | new
    · exact List.mem_append_left _ (tables.kept row old)
    · exact List.mem_append_right _ new
  · intro row member a carried inApp nonzero sub named anonymous
    rcases List.mem_append.mp member with old | new
    · exact tables.live row old a carried inApp nonzero sub named anonymous
    · have eq := List.mem_singleton.mp new
      subst eq
      refine met.2 nonzero ⟨a, carried, inApp⟩ ?_
      simp only at named
      rw [named]
      exact anonymous
  · intro sub anonymous a carried
    rw [SpendState.everLogged, sumWhere_append, sumWhere_append, add_right_comm]
    exact congrArg (· + _) (tables.lifetime sub anonymous a carried)
  · intro a carried
    rw [SpendState.loggedToday, sumWhere_append, sumWhere_append, add_right_comm]
    exact congrArg (· + _) (tables.daily a carried)

/-- On a new day nothing has been spent and nothing carried. -/
theorem SpendSound.tick (sound : SpendSound s) {now : Instant} (past : s.now ≤ now) :
    SpendSound { s with now := now } := by
  have tables := sound.tables
  have days := Instant.day_mono past
  refine sound.of_tables ⟨tables.identified, tables.unique, ?_, tables.kept, tables.live,
    tables.lifetime, ?_, ?_⟩ ⟨past, fun _ _ h => h, fun _ _ h => h⟩ rfl rfl
  · intro row member
    obtain ⟨created, positive, before⟩ := tables.known row member
    exact ⟨created, positive, le_trans before past⟩
  · intro app carried
    have today := tables.daily app carried
    unfold SpendState.loggedToday at today ⊢
    simp only
    rcases days.eq_or_lt with same | later
    · rw [← same]
      exact today
    · have none : ∀ rows, (∀ row ∈ rows, row ∈ s.logged) →
          sumWhere (UsageRow.anonymousOn s.created app now.day) UsageRow.cost rows = 0 := by
        intro rows sub
        refine sumWhere_eq_zero fun row member taken => ?_
        have before := Instant.day_mono (tables.known row (sub row member)).2.2
        have here : row.requestTimestamp.day = now.day := by
          simp only [UsageRow.anonymousOn, decide_eq_true_eq] at taken
          exact taken.2.1
        omega
      have carry : carriedToday app now.day s.db.spendCarry = 0 := by
        refine sumWhere_eq_zero fun r member taken => ?_
        simp only [carriedOn, decide_eq_true_eq] at taken
        have before := tables.dated r.1 r.2 now.day (Table.get_of_mem member) taken.2
        omega
      rw [none _ tables.kept, carry, none _ fun _ h => h, add_zero]
  · intro key c day stored dated
    exact le_trans (tables.dated key c day stored dated) days

end

/-! ### Deleting -/

theorem mem_appsInScope {scope : Option PyStr} {app : PyStr} :
    app ∈ appsInScope scope ↔ app ∈ carryApps ∧ (scope = none ∨ scope = some app) := by
  simp [appsInScope]

section
variable {s : SpendState} {request : DeleteRequest}

/-- Of the rows that count for an install, a deletion takes those of its own install and scope. -/
theorem TablesSound.purged_owned (sound : TablesSound s) (names : Names s request.userId request.sub)
    {sub app : PyStr} (anonymous : isAnonymous sub = true) (carried : app ∈ carryApps) :
    sumWhere (fun row => row.inScope request.userId request.scope &&
        row.ownedBy s.created sub app) UsageRow.cost s.db.usageLog =
      if request.sub = some sub ∧ app ∈ appsInScope request.scope then
        spentOn request.userId app s.db.usageLog
      else 0 := by
  split
  · next here =>
    obtain ⟨named, inScope⟩ := here
    have created := (names.named sub named).1
    have scope := (mem_appsInScope.mp inScope).2
    refine sumWhere_congr fun row member _ => ?_
    rw [Bool.eq_iff_iff]
    simp only [UsageRow.inScope, UsageRow.ownedBy, UsageRow.isOf, Bool.and_eq_true,
      decide_eq_true_eq]
    constructor
    · rintro ⟨⟨own, _⟩, _, inApp⟩
      exact ⟨own, inApp⟩
    · rintro ⟨own, inApp⟩
      refine ⟨⟨own, scope.imp_right fun eq => by rw [inApp, eq]⟩, ?_, inApp⟩
      rw [own, created]
  · next elsewhere =>
    refine sumWhere_eq_zero fun row member taken => ?_
    simp only [UsageRow.inScope, UsageRow.ownedBy, Bool.and_eq_true, decide_eq_true_eq] at taken
    obtain ⟨⟨own, scope⟩, created, inApp⟩ := taken
    have inScope : app ∈ appsInScope request.scope := by
      refine mem_appsInScope.mpr ⟨carried, scope.imp_right fun eq => ?_⟩
      rw [← eq, inApp]
    rcases named : request.sub with _ | x
    · rw [named] at names
      exact sound.gone_free names member own carried inApp created anonymous
    · have of := (names.named x named).1
      rw [own, of] at created
      exact absurd ⟨named.trans created, inScope⟩ elsewhere

/-- Of the rows of today, a deletion takes those of its own account and scope. -/
theorem TablesSound.purged_today (sound : TablesSound s) (names : Names s request.userId request.sub)
    {app : PyStr} (carried : app ∈ carryApps) :
    sumWhere (fun row => row.inScope request.userId request.scope &&
        row.anonymousOn s.created app s.now.day) UsageRow.cost s.db.usageLog =
      if request.sub ≠ none ∧ app ∈ appsInScope request.scope then
        spentSince s.now.dayStart request.userId app s.db.usageLog
      else 0 := by
  split
  · next here =>
    obtain ⟨x, named⟩ := Option.ne_none_iff_exists'.mp here.1
    obtain ⟨created, anonymous⟩ := names.named x named
    have scope := (mem_appsInScope.mp here.2).2
    refine sumWhere_congr fun row member _ => ?_
    have past := (sound.known row (sound.kept row member)).2.2
    rw [Bool.eq_iff_iff]
    simp only [UsageRow.inScope, UsageRow.anonymousOn, UsageRow.isOf, Bool.and_eq_true,
      decide_eq_true_eq, Instant.dayStart_le_iff_day past]
    constructor
    · rintro ⟨⟨own, _⟩, inApp, today, _⟩
      exact ⟨⟨own, inApp⟩, today⟩
    · rintro ⟨⟨own, inApp⟩, today⟩
      refine ⟨⟨own, scope.imp_right fun eq => by rw [inApp, eq]⟩, inApp, today, ?_⟩
      rw [own, created]
      exact anonymous
  · next elsewhere =>
    refine sumWhere_eq_zero fun row member taken => ?_
    simp only [UsageRow.inScope, UsageRow.anonymousOn, Bool.and_eq_true, decide_eq_true_eq] at taken
    obtain ⟨⟨own, scope⟩, inApp, _, anonymous⟩ := taken
    have inScope : app ∈ appsInScope request.scope := by
      refine mem_appsInScope.mpr ⟨carried, scope.imp_right fun eq => ?_⟩
      rw [← eq, inApp]
    rcases named : request.sub with _ | x
    · rw [named] at names
      rcases created : s.created row.userId with _ | sub
      · rw [created] at anonymous
        cases anonymous
      · rw [created] at anonymous
        exact sound.gone_free names member own carried inApp created anonymous
    · exact absurd ⟨by simp [named], inScope⟩ elsewhere

/-- Credits are of apps in the scope only. -/
theorem creditOn_eq_zero {credits : List Credit} {scope : Option PyStr}
    (apps : ∀ credit ∈ credits, credit.appId ∈ appsInScope scope) {app : PyStr}
    (outside : app ∉ appsInScope scope) (amount : Credit → ℚ) : creditOn amount app credits = 0 := by
  refine sumWhere_eq_zero fun credit member taken => ?_
  simp only [decide_eq_true_eq] at taken
  rw [← taken.1] at outside
  exact absurd (apps credit member) outside

variable {credits : List Credit}

/-- The carry after a deletion. -/
theorem deleteWith_carriedFor
    (apps : ∀ credit ∈ credits, credit.appId ∈ appsInScope request.scope)
    (undisturbed : request.Undisturbed credits s) {sub app : PyStr} :
    carriedFor sub app (s.db.deleteWith request credits).spendCarry =
      carriedFor sub app s.db.spendCarry +
        if request.sub = some sub ∧ app ∈ appsInScope request.scope then
          spentOn request.userId app s.db.usageLog
        else 0 := by
  show carriedFor sub app (request.store credits s.db.spendCarry) = _
  unfold DeleteRequest.store
  rcases named : request.sub with _ | x
  · rw [if_neg (by simp), add_zero]
  · by_cases same : x = sub
    · subst same
      simp only [true_and]
      rw [carriedFor_credits]
      split
      · next inScope => rw [(undisturbed.carries x named app inScope).lifetime]
      · next outside => rw [creditOn_eq_zero apps outside]
    · rw [if_neg (by simp [same]), add_zero]
      unfold carriedFor
      simp only
      rw [credits_get_of_ne (Ne.symm same)]

/-- The carry of today after a deletion. -/
theorem deleteWith_carriedToday
    (apps : ∀ credit ∈ credits, credit.appId ∈ appsInScope request.scope)
    (undisturbed : request.Undisturbed credits s) {app : PyStr} :
    carriedToday app s.now.day (s.db.deleteWith request credits).spendCarry =
      carriedToday app s.now.day s.db.spendCarry +
        if request.sub ≠ none ∧ app ∈ appsInScope request.scope then
          spentSince s.now.dayStart request.userId app s.db.usageLog
        else 0 := by
  show carriedToday app s.now.day (request.store credits s.db.spendCarry) = _
  unfold DeleteRequest.store
  rcases named : request.sub with _ | x
  · rw [if_neg (by simp), add_zero]
  · simp only [ne_eq, reduceCtorEq, not_false_eq_true, true_and]
    by_cases today : request.day = s.now.day
    · rw [← today, carriedToday_credits]
      split
      · next inScope =>
        rw [(undisturbed.carries x named app inScope).sameDay today]
      · next outside => rw [creditOn_eq_zero apps outside]
    · rw [carriedToday_credits_of_ne (Ne.symm today) fun credit member =>
        ((undisturbed.carries x named credit.appId (apps credit member)).earlier today).2]
      split
      · next inScope =>
        rw [((undisturbed.carries x named app inScope).earlier today).1, add_zero]
      · rw [add_zero]

/-- The accounts a deletion leaves. -/
theorem deleteWith_users (userId : PyStr) :
    (s.db.deleteWith request credits).users.get userId =
      if accountRemoved request.userId request.scope s.db = true ∧ userId = request.userId then none
      else s.db.users.get userId := by
  show (if accountRemoved request.userId request.scope s.db = true then
    s.db.users.delete request.userId else s.db.users).get userId = _
  rcases accountRemoved request.userId request.scope s.db with _ | _
  · simp
  · rw [if_pos rfl, Table.get_delete]
    simp

/-- A deletion that carries what it purges keeps the account of the spend. -/
theorem TablesSound.deleteWith (sound : TablesSound s) (known : request.Known s)
    (apps : ∀ credit ∈ credits, credit.appId ∈ appsInScope request.scope)
    (undisturbed : request.Undisturbed credits s) :
    TablesSound { s with db := s.db.deleteWith request credits } := by
  have stays : ∀ userId user, (s.db.deleteWith request credits).users.get userId = some user →
      s.db.users.get userId = some user := by
    intro userId user stored
    rw [deleteWith_users] at stored
    exact (Option.ite_none_left_eq_some.mp stored).2
  refine ⟨fun userId user stored => sound.identified userId user (stays userId user stored),
    fun userId other user user' stored stored' => sound.unique userId other user user'
      (stays userId user stored) (stays other user' stored'), sound.known,
    fun row member => sound.kept row (List.mem_of_mem_filter member), ?_, ?_, ?_, ?_⟩
  · intro row member app carried inApp cost sub created anonymous
    obtain ⟨stored, outside⟩ := List.mem_filter.mp member
    have live := sound.live row stored app carried inApp cost sub created anonymous
    simp only at created ⊢
    rw [deleteWith_users]
    split
    · next removed =>
      obtain ⟨removed, own⟩ := removed
      have notInScope : app ∉ appsInScope request.scope := by
        intro inScope
        have scope := (mem_appsInScope.mp inScope).2
        simp only [UsageRow.inScope, own, inApp, true_and, Bool.not_eq_true',
          decide_eq_false_iff_not, not_or] at outside
        rcases scope with all | one
        · exact outside.1 all
        · exact outside.2 one.symm
      rcases named : request.sub with _ | x
      · have names := known.names
        rw [named] at names
        rw [own] at created live
        rw [names.gone rfl sub created anonymous] at live
        cases live
      · have none := undisturbed.leaves (by simp [named]) removed app carried notInScope
        refine absurd (eq_zero_of_sumWhere sound.cost_nonneg none row stored ?_) cost
        simp [UsageRow.isOf, own, inApp]
    · exact live
  · intro sub anonymous app carried
    have before := sound.lifetime sub anonymous app carried
    have taken := sound.purged_owned known.names anonymous carried
    have whole := sumWhere_delete (UsageRow.ownedBy s.created sub app)
      (UsageRow.inScope request.userId request.scope) UsageRow.cost s.db.usageLog
    have carry : carriedFor sub app (s.db.deleteWith request credits).spendCarry = _ :=
      deleteWith_carriedFor apps undisturbed
    unfold SpendState.everLogged at before ⊢
    simp only
    rw [carry, ← taken, ← before, ← whole]
    simp only [BudgetDb.deleteWith, BudgetDb.purge]
    ring
  · intro app carried
    have before := sound.daily app carried
    have taken := sound.purged_today known.names carried
    have whole := sumWhere_delete (UsageRow.anonymousOn s.created app s.now.day)
      (UsageRow.inScope request.userId request.scope) UsageRow.cost s.db.usageLog
    have carry : carriedToday app s.now.day (s.db.deleteWith request credits).spendCarry = _ :=
      deleteWith_carriedToday apps undisturbed
    unfold SpendState.loggedToday at before ⊢
    simp only
    rw [carry, ← taken, ← before, ← whole]
    simp only [BudgetDb.deleteWith, BudgetDb.purge]
    ring
  · intro key c day stored dated
    simp only [BudgetDb.deleteWith, BudgetDb.purge, DeleteRequest.store] at stored
    split at stored
    · exact sound.dated key c day stored dated
    · exact credits_day_le known.past sound.dated key c day stored dated

end

/-! ### Expiring -/

section
variable {s : SpendState} {cutoff : Instant} {userId expired : PyStr} {sub : Option PyStr}

/-- Of the rows that count for an install, an expiry takes the old ones of its own pair. -/
theorem TablesSound.expired_owned (sound : TablesSound s) (names : Names s userId sub)
    {install app : PyStr} (anonymous : isAnonymous install = true) (carried : app ∈ carryApps) :
    sumWhere (fun row => row.expires cutoff userId expired && row.ownedBy s.created install app)
        UsageRow.cost s.db.usageLog =
      if sub = some install ∧ app = expired then
        sumWhere (UsageRow.expires cutoff userId expired) UsageRow.cost s.db.usageLog
      else 0 := by
  split
  · next here =>
    obtain ⟨named, rfl⟩ := here
    have created := (names.named install named).1
    refine sumWhere_congr fun row member _ => ?_
    rw [Bool.eq_iff_iff]
    simp only [UsageRow.expires, UsageRow.ownedBy, UsageRow.isOf, Bool.and_eq_true,
      decide_eq_true_eq]
    constructor
    · exact And.left
    · intro old
      refine ⟨old, ?_, old.1.2⟩
      rw [old.1.1, created]
  · next elsewhere =>
    refine sumWhere_eq_zero fun row member taken => ?_
    simp only [UsageRow.expires, UsageRow.ownedBy, UsageRow.isOf, Bool.and_eq_true,
      decide_eq_true_eq] at taken
    obtain ⟨⟨⟨own, inExpired⟩, _⟩, created, inApp⟩ := taken
    have same : app = expired := Option.some.inj (inApp.symm.trans inExpired)
    rcases named : sub with _ | x
    · rw [named] at names
      exact sound.gone_free names member own carried inApp created anonymous
    · have of := (names.named x named).1
      rw [own, of] at created
      exact absurd ⟨named.trans created, same⟩ elsewhere

/-- The carry after an expiry. -/
theorem expireWith_carriedFor (sound : TablesSound s) {spent : ℚ} (inCarry : expired ∈ carryApps)
    (undisturbed : ∀ x, sub = some x →
      spent = sumWhere (UsageRow.expires cutoff userId expired) UsageRow.cost s.db.usageLog)
    (install app : PyStr) :
    carriedFor install app (s.db.expireWith cutoff userId expired spent sub).spendCarry =
      carriedFor install app s.db.spendCarry + if sub = some install ∧ app = expired then
        sumWhere (UsageRow.expires cutoff userId expired) UsageRow.cost s.db.usageLog
      else 0 := by
  unfold BudgetDb.expireWith
  rcases named : sub with _ | x
  · simp
  · have sums := undisturbed x named
    have positive : 0 ≤ spent := by
      rw [sums]
      exact sumWhere_nonneg sound.cost_nonneg
    simp only [Option.some.injEq]
    rw [← sums]
    split
    · exact carriedFor_storeExpired x app s.db.spendCarry install expired spent
    · next nothing =>
      have zero : spent = 0 := by
        refine le_antisymm (not_lt.mp fun spends => ?_) positive
        exact nothing ⟨spends, inCarry⟩
      rw [zero, ite_self, add_zero]

/-- An expiry that carries what it deletes keeps the account of the spend. -/
theorem TablesSound.expireWith (sound : TablesSound s) (names : Names s userId sub)
    (old : cutoff ≤ s.now.dayStart) (inCarry : expired ∈ carryApps) {spent : ℚ}
    (undisturbed : ∀ x, sub = some x →
      spent = sumWhere (UsageRow.expires cutoff userId expired) UsageRow.cost s.db.usageLog) :
    TablesSound { s with db := s.db.expireWith cutoff userId expired spent sub } := by
  refine ⟨sound.identified, sound.unique, sound.known,
    fun row member => sound.kept row (List.mem_of_mem_filter member),
    fun row member => sound.live row (List.mem_of_mem_filter member), ?_, ?_, ?_⟩
  · intro install anonymous app carried
    have before := sound.lifetime install anonymous app carried
    have taken : sumWhere (fun row : UsageRow => row.expires cutoff userId expired && _) _ _ = _ :=
      sound.expired_owned names anonymous carried
    have whole := sumWhere_delete (UsageRow.ownedBy s.created install app)
      (UsageRow.expires cutoff userId expired) UsageRow.cost s.db.usageLog
    have carry := expireWith_carriedFor sound inCarry undisturbed install app
    unfold SpendState.everLogged at before ⊢
    simp only
    rw [carry, ← taken, ← before, ← whole]
    simp only [BudgetDb.expireWith]
    ring
  · intro app carried
    have before := sound.daily app carried
    -- what expires is not of today
    have taken : sumWhere (fun row => row.expires cutoff userId expired &&
        row.anonymousOn s.created app s.now.day) UsageRow.cost s.db.usageLog = 0 := by
      refine sumWhere_eq_zero fun row member taken => ?_
      simp only [UsageRow.expires, UsageRow.anonymousOn, Bool.and_eq_true,
        decide_eq_true_eq] at taken
      obtain ⟨⟨_, early⟩, _, today, _⟩ := taken
      have after := Instant.dayStart_le_iff.mpr today.ge
      exact absurd (lt_of_lt_of_le early old) (not_lt.mpr after)
    have whole := sumWhere_delete (UsageRow.anonymousOn s.created app s.now.day)
      (UsageRow.expires cutoff userId expired) UsageRow.cost s.db.usageLog
    have carry : carriedToday app s.now.day
        (s.db.expireWith cutoff userId expired spent sub).spendCarry =
          carriedToday app s.now.day s.db.spendCarry := by
      unfold BudgetDb.expireWith
      rcases sub with _ | x
      · rfl
      · simp only
        split
        · exact carriedToday_storeExpired x app s.db.spendCarry s.now.day expired spent
        · rfl
    unfold SpendState.loggedToday at before ⊢
    simp only
    rw [carry, ← before, ← whole, taken, add_zero]
    rfl
  · intro key c day stored dated
    unfold BudgetDb.expireWith at stored
    rcases sub with _ | x
    · exact sound.dated key c day stored dated
    · simp only at stored
      split at stored
      · exact storeExpired_day x s.db.spendCarry sound.dated key c day stored dated
      · exact sound.dated key c day stored dated

end

/-! ### Runs -/

section
variable {s s' : SpendState}

/-- A pass takes nothing of today. -/
theorem expiryCutoff_le (now : Instant) : expiryCutoff now ≤ now.dayStart := by
  have seconds := now.wholeSeconds_le
  have day : now < now.dayStart + microsPerDay := Nat.lt_div_mul_add (by decide)
  unfold expiryCutoff usageLogRetentionDays
  rw [tsub_le_iff_right]
  refine le_trans seconds (le_trans day.le ?_)
  exact Nat.add_le_add_left (by decide) _

theorem later_db {db : BudgetDb} (gone : ∀ userId, s.db.users.get userId = none →
    db.users.get userId = none) : Later s { s with db := db } :=
  ⟨le_refl _, fun _ _ h => h, fun userId _ => gone userId⟩

theorem SpendSound.deleteWrite (sound : SpendSound s) {call : Nat}
    (met : (SpendAction.deleteWrite call).Undisturbed s) (step : s.deleteWrite call = some s') :
    SpendSound s' := by
  have known := sound.deleting call
  have finds : (s.deletes call).Undisturbed s := met
  have write : ∀ (request : DeleteRequest) (credits : List Credit), request.Known s →
      (∀ credit ∈ credits, credit.appId ∈ appsInScope request.scope) →
      request.Undisturbed credits s →
      SpendSound ({ s with db := s.db.deleteWith request credits }.setDelete call .idle) := by
    intro request credits known apps undisturbed
    have gone : Later s { s with db := s.db.deleteWith request credits } :=
      later_db fun userId gone => by rw [deleteWith_users, gone, ite_self]
    exact (sound.of_tables (sound.tables.deleteWith known apps undisturbed) gone rfl rfl).setDelete
      call trivial
  unfold SpendState.deleteWrite at step
  split at step
  · next request standing =>
    rw [standing] at known finds
    cases step
    exact write request [] known.1 (fun credit member => by cases member) finds
  · next request credit apps standing =>
    rw [standing] at known finds
    cases step
    refine write request _ known.1 (fun c member => ?_) finds
    rcases List.mem_cons.mp member with rfl | later
    · exact known.2 _ List.mem_cons_self
    · obtain ⟨app, rest, rfl⟩ := List.mem_map.mp later
      exact known.2 app (List.mem_cons_of_mem _ rest)
  · cases step

theorem SpendSound.expireWrite (sound : SpendSound s) {call : Nat}
    (met : (SpendAction.expireWrite call).Undisturbed s) (step : s.expireWrite call = some s') :
    SpendSound s' := by
  have known := sound.expiring call
  have finds : (s.expires call).Undisturbed s := met
  unfold SpendState.expireWrite at step
  split at step
  · next cutoff userId app spent sub batch standing =>
    rw [standing] at known finds
    obtain ⟨old, carried, names, rest⟩ := known
    cases step
    have undisturbed : ∀ x, sub = some x →
        spent = sumWhere (UsageRow.expires cutoff userId app) UsageRow.cost s.db.usageLog := by
      rintro x rfl
      exact finds
    have later : Later s { s with db := s.db.expireWith cutoff userId app spent sub } :=
      later_db fun _ gone => gone
    have tables := sound.tables.expireWith names old carried undisturbed
    refine (sound.of_tables tables later rfl rfl).setExpire call ?_
    exact ⟨old, fun pair member => ⟨later.created_ne (rest pair member).1, (rest pair member).2⟩⟩
  · cases step

/-- The reads of a deletion. -/
theorem SpendSound.delete_reads (sound : SpendSound s) {call : Nat}
    (step : s.deleteTotal call = some s' ∨ s.deleteToday call = some s') : SpendSound s' := by
  have known := sound.deleting call
  rcases step with step | step
  · unfold SpendState.deleteTotal at step
    split at step
    · next request app apps standing =>
      rw [standing] at known
      cases step
      exact sound.setDelete call known
    · cases step
  · unfold SpendState.deleteToday at step
    split at step
    · next request app total apps standing =>
      rw [standing] at known
      cases step
      apply sound.setDelete
      split
      · exact ⟨known.1, fun a member => known.2 a (List.mem_cons_of_mem _ member)⟩
      · exact known
    · cases step

theorem SpendSound.deleteStart (sound : SpendSound s) {call : Nat} {userId : PyStr}
    {scope : Option PyStr} {apps : List PyStr} (step : s.deleteStart call userId scope apps = some s') :
    SpendSound s' := by
  unfold SpendState.deleteStart at step
  split at step
  · obtain ⟨⟨created, order⟩, eq⟩ := Option.ite_none_right_eq_some.mp step
    cases eq
    refine sound.setDelete call ⟨⟨sound.tables.names created, le_refl _⟩, ?_⟩
    intro app member
    split at member
    · cases member
    · exact order.mem_iff.mp member
  · cases step

/-- The reads of an expiry. -/
theorem SpendSound.expire_reads (sound : SpendSound s) {call : Nat}
    (step : s.expireStart call = some s' ∨ (∃ batch, s.expireSelect call batch = some s') ∨
      s.expireSum call = some s' ∨ s.expireName call = some s') : SpendSound s' := by
  have known := sound.expiring call
  rcases step with step | ⟨batch, step⟩ | step | step
  · unfold SpendState.expireStart at step
    split at step
    · cases step
      exact sound.setExpire call ⟨expiryCutoff_le s.now, fun pair member => by cases member⟩
    · cases step
  · unfold SpendState.expireSelect at step
    split at step
    · next cutoff standing =>
      rw [standing] at known
      obtain ⟨⟨_, _, selected⟩, eq⟩ := Option.ite_none_right_eq_some.mp step
      cases eq
      apply sound.setExpire
      split
      · trivial
      · refine ⟨known.1, fun pair member => ?_⟩
        have pick := selected pair member
        simp only [canExpire, decide_eq_true_eq] at pick
        obtain ⟨inApps, _, row, stored, expires⟩ := pick
        simp only [UsageRow.expires, UsageRow.isOf, Bool.and_eq_true, decide_eq_true_eq] at expires
        refine ⟨?_, inApps⟩
        rw [← expires.1.1]
        exact (sound.tables.known row (sound.tables.kept row stored)).1
    · cases step
  · unfold SpendState.expireSum at step
    split at step
    · next cutoff userId app batch standing =>
      rw [standing] at known
      cases step
      exact sound.setExpire call ⟨known.1, known.2 _ List.mem_cons_self,
        fun pair member => known.2 pair (List.mem_cons_of_mem _ member)⟩
    · cases step
  · unfold SpendState.expireName at step
    split at step
    · next cutoff userId app spent batch standing =>
      rw [standing] at known
      obtain ⟨old, here, rest⟩ := known
      cases step
      exact sound.setExpire call ⟨old, here.2, sound.tables.names here.1, rest⟩
    · cases step

/-- Every step that meets its condition keeps the account of the spend. -/
theorem SpendSound.step (sound : SpendSound s) (action : SpendAction) (met : action.Undisturbed s)
    (step : spendMachine.step action s = some s') : SpendSound s' := by
  cases action with
  | tick now =>
      obtain ⟨past, eq⟩ := Option.ite_none_right_eq_some.mp step
      cases eq
      exact sound.tick past
  | signUp userId sub exclude => exact sound.signUp step
  | join userId app =>
      cases step
      have tables := sound.tables
      exact sound.of_tables ⟨tables.identified, tables.unique, tables.known, tables.kept,
        tables.live, tables.lifetime, tables.daily, tables.dated⟩ (later_db fun _ gone => gone)
        rfl rfl
  | log userId app cost case ipHash => exact sound.log met step
  | deleteStart call userId scope apps => exact sound.deleteStart step
  | deleteTotal call => exact sound.delete_reads (.inl step)
  | deleteToday call => exact sound.delete_reads (.inr step)
  | deleteWrite call => exact sound.deleteWrite met step
  | expireStart call => exact sound.expire_reads (.inl step)
  | expireSelect call batch => exact sound.expire_reads (.inr (.inl ⟨batch, step⟩))
  | expireSum call => exact sound.expire_reads (.inr (.inr (.inl step)))
  | expireName call => exact sound.expire_reads (.inr (.inr (.inr step)))
  | expireWrite call => exact sound.expireWrite met step

theorem SpendSound.empty : SpendSound .empty where
  tables := by
    refine ⟨?_, ?_, ?_, ?_, ?_, ?_, ?_, ?_⟩
    · intro userId user stored
      cases stored
    · intro userId other user user' stored
      cases stored
    · intro row member
      cases member
    · intro row member
      cases member
    · intro row member
      cases member
    · intro sub anonymous app carried
      exact add_zero 0
    · intro app carried
      exact add_zero 0
    · intro key c day stored
      cases stored
  deleting _ := trivial
  expiring _ := trivial

/-- The figures a check computes. -/
theorem SpendSound.figures (sound : SpendSound s) {userId : PyStr} {user : BudgetUser}
    (stored : s.db.users.get userId = some user) (anonymous : isAnonymous user.appleSub = true)
    {app : PyStr} (carried : app ∈ carryApps) :
    lifetimeSpent userId app s.db = s.everLogged user.appleSub app ∧
      dailySpent s.now app s.db = s.loggedToday app := by
  have tables := sound.tables
  constructor
  · rw [← tables.lifetime _ anonymous app carried, lifetimeSpent, carriedSpent, stored]
    refine congrArg (· + _) (sumWhere_congr fun row member cost => ?_)
    rw [Bool.eq_iff_iff]
    simp only [UsageRow.isOf, UsageRow.ownedBy, decide_eq_true_eq]
    constructor
    · rintro ⟨rfl, inApp⟩
      exact ⟨tables.identified _ user stored, inApp⟩
    · rintro ⟨created, inApp⟩
      refine ⟨?_, inApp⟩
      -- a row of the install that costs something is of an account that lives
      have live := tables.live row member app carried inApp cost _ created anonymous
      obtain ⟨other, stored'⟩ := Option.isSome_iff_exists.mp live
      have own := tables.identified row.userId other stored'
      rw [created] at own
      exact tables.unique _ _ other user stored' stored (Option.some.inj own).symm
  · rw [← tables.daily app carried, dailySpent]
    refine congrArg (· + _) (sumWhere_congr fun row member cost => ?_)
    have past := (tables.known row (tables.kept row member)).2.2
    rw [Bool.eq_iff_iff]
    simp only [UsageRow.anonymousOn, UsageRow.ofAnonymous, Bool.and_eq_true, decide_eq_true_eq,
      Instant.dayStart_le_iff_day past]
    constructor
    · rintro ⟨⟨inApp, today⟩, isAnon⟩
      refine ⟨inApp, today, ?_⟩
      rcases stored' : s.db.users.get row.userId with _ | other
      · rw [stored'] at isAnon
        cases isAnon
      · rw [stored'] at isAnon
        rw [tables.identified row.userId other stored']
        exact isAnon
    · rintro ⟨inApp, today, isAnon⟩
      refine ⟨⟨inApp, today⟩, ?_⟩
      rcases created : s.created row.userId with _ | sub
      · rw [created] at isAnon
        cases isAnon
      · rw [created] at isAnon
        have live := tables.live row member app carried inApp cost sub created isAnon
        obtain ⟨other, stored'⟩ := Option.isSome_iff_exists.mp live
        have own := tables.identified row.userId other stored'
        rw [created, Option.some.injEq] at own
        rw [stored', Option.map_some, Option.getD_some, ← own]
        exact isAnon

end

/-- In every run whose steps all meet the condition, the lifetime spend a check computes for an
anonymous account in a carried app is the cost ever logged for the install and the app, and its
daily figure is the anonymous cost logged in the app today. -/
theorem anonymous_spend_conserved (actions : List SpendAction) (last : SpendState)
    (along : spendMachine.Along SpendAction.Undisturbed actions .empty)
    (run : spendMachine.run actions .empty = some last) (userId : PyStr) (user : BudgetUser)
    (stored : last.db.users.get userId = some user) (anonymous : isAnonymous user.appleSub = true)
    (app : PyStr) (carried : app ∈ carryApps) (estimate : Option ℚ) (caps : AnonymousCaps)
    (case ipKey : Option PyStr) :
    ((check last.now userId app estimate caps case ipKey last.db).1 ≠ some codeApplication →
        (check last.now userId app estimate caps case ipKey last.db).2.spent =
          some (last.everLogged user.appleSub app)) ∧
      ∀ day, (check last.now userId app estimate caps case ipKey last.db).2.dailySpent = some day →
        day = last.loggedToday app := by
  have sound : SpendSound last := Machine.run_invariant_along
    (fun action s s' met sound step => sound.step action met step) along .empty run
  obtain ⟨lifetime, daily⟩ := sound.figures stored anonymous carried
  obtain ⟨spent, today⟩ := check_info last.now userId app estimate caps case ipKey last.db
  rw [lifetime] at spent
  rw [daily] at today
  exact ⟨spent, today⟩

/-! ### An install that comes back -/

/-- An install of the interview app. -/
def installSub : PyStr := py "anonymous:6f1e"

/-- An allowance of three dollars, with a daily ceiling. -/
def interviewCaps : AnonymousCaps := ⟨none, 3, some 50, none, 30⟩

/-- The check of the second account of the install. -/
def checkAgain (s : SpendState) : Option PyStr × BudgetInfo :=
  check s.now (py "v") (py "n400") (some (1 / 10)) interviewCaps none none s.db

/-- The install spends half a dollar, deletes its data, and signs up again. -/
def spendAndReturn : List SpendAction :=
  [.tick (100 * microsPerDay), .signUp (py "u") installSub false, .join (py "u") (py "n400"),
    .log (py "u") (some (py "n400")) (some (1 / 2)) none none,
    .deleteStart 1 (py "u") (some (py "n400")) [py "n400"], .deleteTotal 1, .deleteToday 1,
    .deleteWrite 1, .signUp (py "v") installSub false,
    .log (py "v") (some (py "n400")) (some (1 / 4)) none none]

/-- The theorem at that run: the check sees both accounts' spend. -/
theorem anonymous_spend_conserved_returning :
    ∃ last, spendMachine.run spendAndReturn .empty = some last ∧
      (checkAgain last).2.spent = some (last.everLogged installSub (py "n400")) ∧
      last.everLogged installSub (py "n400") = 3 / 4 := by
  obtain ⟨last, run⟩ := Option.isSome_iff_exists.mp
    (show (spendMachine.run spendAndReturn .empty).isSome = true by decide +kernel)
  have facts : (spendMachine.run spendAndReturn .empty).map (fun s =>
      (s.db.users.get (py "v"), (checkAgain s).1, s.everLogged installSub (py "n400"))) =
        some (some ⟨installSub, false⟩, none, 3 / 4) := by decide +kernel
  rw [run, Option.map_some, Option.some.injEq, Prod.mk.injEq, Prod.mk.injEq] at facts
  obtain ⟨stored, allowed, total⟩ := facts
  obtain ⟨spent, _⟩ := anonymous_spend_conserved spendAndReturn last (by decide +kernel) run (py "v")
    ⟨installSub, false⟩ stored (by decide +kernel) (py "n400") (by decide +kernel) (some (1 / 10))
    interviewCaps none none
  refine ⟨last, run, spent ?_, total⟩
  rw [checkAgain] at allowed
  rw [allowed]
  exact Option.some_ne_none _ |>.symm

/-- The install deletes its data while a call runs, whose cost is logged afterwards. -/
def logAfterDelete : List SpendAction :=
  [.tick (100 * microsPerDay), .signUp (py "u") installSub false, .join (py "u") (py "n400"),
    .deleteStart 1 (py "u") (some (py "n400")) [py "n400"], .deleteTotal 1, .deleteToday 1,
    .deleteWrite 1, .log (py "u") (some (py "n400")) (some (1 / 2)) none none,
    .signUp (py "v") installSub false]

/-- The half dollar is gone for the install and for the day. -/
theorem late_log_resets_allowance :
    (spendMachine.run logAfterDelete .empty).map (fun s =>
      ((checkAgain s).1, (checkAgain s).2.spent, s.everLogged installSub (py "n400"),
        (checkAgain s).2.dailySpent, s.loggedToday (py "n400"))) =
      some (none, some 0, 1 / 2, some 0, 1 / 2) := by
  decide +kernel

end GhostPour.Budget
