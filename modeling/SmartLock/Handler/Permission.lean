import SmartLock.Handler.Delegation
import SmartLock.Handler.Reply

/-!
# The time-limited right

Whom `canUseLock` lets use the door. A tenant and a periodic user have the
right for an interval of days, which the source tests with both
comparisons turned round: what it lets through are the days outside.
-/

namespace SmartLock

open Prog

variable {W : World} {a p : CStr} {s s' s₁ : Sys} {A : Authorization} {r : Bool}

/-! ## The right, and what is tested -/

/-- `getTodayTimestamp`, asked at `m`. -/
def World.today (W : World) (m : ℕ) : Int := W.localDay (W.clock m)

/-- `getTodayWeekday`, asked at `m`. -/
def World.weekday (W : World) (m : ℕ) : Fin 7 := W.localWeekday (W.today m)

/-- The judgement by the kind of user at the moment `m`, with `interval` to
judge an interval of days; the weekday is asked for first. -/
def JudgedBy (interval : Int → Int → Int → Prop) (W : World) (A : Authorization) (m : ℕ) : Prop :=
  match A.userType with
  | UserType.admin => True
  | UserType.owner => True
  | UserType.tenant => interval A.validFromTs A.validUntilTs (W.today m)
  | UserType.periodicUser =>
    A.weekdays[W.weekday m] = true ∧ interval A.validFromTs A.validUntilTs (W.today (m + 1))
  | UserType.oneTimeUser => A.oneDayTs = W.today m
  | _ => False

/-- The day is in the interval. -/
def Covers (validFrom validUntil today : Int) : Prop := validFrom ≤ today ∧ today ≤ validUntil

/-- What the source tests of an interval. -/
def Tested (validFrom validUntil today : Int) : Prop := today ≤ validFrom ∧ validUntil ≤ today

/-- `get_authorization` finds `A` for the phone, and is through in `s₁`. -/
def Found (W : World) (p : CStr) (s : Sys) (A : Authorization) (s₁ : Sys) : Prop :=
  (storedAuthorization W p).run (s.noted (.consult p)) = (.ok (some A), s₁)

/-- The user of `a` is authorized, for a phone with a stored authorization
that `interval` is to judge. -/
def Entitled (interval : Int → Int → Int → Prop) (W : World) (a : CStr) (s : Sys) : Prop :=
  ∃ p A s₁, AuthorizedFor a p s ∧ Found W p s A s₁ ∧ JudgedBy interval W A s₁.moment

/-- What is found is stored, and with a flash driver that does not fail
what is stored is found. -/
theorem Found.stored (h : Found W p s A s₁) : s.authorizations p = some A :=
  storedAuthorization_ok (s := s.noted (.consult p)) h

theorem exists_found (hW : Answering W) (h : stored p s = some A) : ∃ s₁, Found W p s A s₁ := by
  obtain ⟨s₁, hrun⟩ := storedAuthorization_run (p := p) (s := s.noted (.consult p)) hW
  rw [show SmartLock.stored p (s.noted (.consult p)) = some A from h] at hrun
  exact ⟨s₁, hrun⟩

/-! ## The source -/

theorem tenantPermitted_ok (h : (tenantPermitted W A).run s = (.ok r, s')) :
    r = true ↔ Tested A.validFromTs A.validUntilTs (W.today s.moment) := by
  obtain ⟨t, s₁, htoday, hrest⟩ := bind_ok.1 h
  cases htoday
  change (if A.validFromTs < W.today s.moment then _ else _ : M Bool).run _ = _ at hrest
  by_cases hfrom : A.validFromTs < W.today s.moment
  · rw [if_pos hfrom] at hrest
    cases hrest
    exact ⟨nofun, fun ht => absurd hfrom (not_lt.2 ht.1)⟩
  · rw [if_neg hfrom] at hrest
    change (if A.validUntilTs > W.today s.moment then _ else _ : M Bool).run _ = _ at hrest
    by_cases huntil : A.validUntilTs > W.today s.moment
    · rw [if_pos huntil] at hrest
      cases hrest
      exact ⟨nofun, fun ht => absurd huntil (not_lt.2 ht.2)⟩
    · rw [if_neg huntil] at hrest
      cases hrest
      exact ⟨fun _ => ⟨not_lt.1 hfrom, not_lt.1 huntil⟩, fun _ => rfl⟩

/-- **The `switch` of `canUseLock`**, with the test the source has. -/
theorem usePermitted_ok (h : (usePermitted W A).run s = (.ok r, s')) :
    r = true ↔ JudgedBy Tested W A s.moment := by
  rw [usePermitted] at h
  split at h
  · rename_i htype
    cases h
    simp [JudgedBy, htype]
  · rename_i htype
    cases h
    simp [JudgedBy, htype]
  · rename_i htype
    simp only [JudgedBy, htype]
    obtain ⟨day, s₁, hday, hrest⟩ := bind_ok.1 h
    cases hday
    change (if ¬ A.weekdays[W.weekday s.moment] = true then _ else _ : M Bool).run _ = _ at hrest
    by_cases hallowed : A.weekdays[W.weekday s.moment] = true
    · rw [if_neg (not_not.2 hallowed)] at hrest
      rw [tenantPermitted_ok hrest]
      exact ⟨fun ht => ⟨hallowed, ht⟩, fun ht => ht.2⟩
    · rw [if_pos hallowed] at hrest
      cases hrest
      exact ⟨fun h => absurd h Bool.false_ne_true, fun ht => absurd ht.1 hallowed⟩
  · rename_i htype
    simp only [JudgedBy, htype]
    exact tenantPermitted_ok h
  · rename_i htype
    simp only [JudgedBy, htype]
    obtain ⟨t, s₁, htoday, hrest⟩ := bind_ok.1 h
    cases htoday
    cases hrest
    exact beq_iff_eq
  · cases h
    rw [JudgedBy]
    split <;> simp_all

/-- **`canUseLock` says yes exactly to whom the source's test entitles.** -/
theorem canUseLock_true_iff :
    ((canUseLock W a).run s).1 = .ok true ↔ Entitled Tested W a s := by
  constructor
  · intro h
    have hrun : (canUseLock W a).run s = (.ok true, ((canUseLock W a).run s).2) := Prod.ext h rfl
    rcases whenAuthorized_ok hrun with ⟨hr, _⟩ | ⟨p, hp, hconsults⟩
    · exact absurd hr (by decide)
    · obtain ⟨_, s₁, hnote, hlooks⟩ := bind_ok.1 hconsults
      cases hnote
      obtain ⟨A, s₂, hfound, hjudges⟩ := bind_ok.1 hlooks
      cases A with
      | none => cases hjudges
      | some A => exact ⟨p, A, s₂, hp, hfound, (usePermitted_ok hjudges).1 rfl⟩
  · rintro ⟨p, A, s₁, hp, hfound, hjudged⟩
    obtain ⟨hstate, hphone⟩ := hp.getters
    obtain ⟨r, s₂, hrun⟩ : Returns (usePermitted W A) s₁ := usePermitted_returns
    have hr : r = true := (usePermitted_ok hrun).2 hjudged
    subst hr
    rw [canUseLock, run_bind_ok hstate, if_neg (not_not.2 rfl), run_bind_ok hphone]
    dsimp only
    rw [run_observe_bind, run_bind_ok hfound]
    exact congrArg Prod.fst hrun

/-! ## Where the two agree -/

/-- The day is before both ends of the interval, behind both, or all there
is of it. -/
def Clear (validFrom validUntil today : Int) : Prop :=
  (today < validFrom ∧ today < validUntil) ∨ (validFrom < today ∧ validUntil < today) ∨
    (validFrom = today ∧ validUntil = today)

theorem tested_iff_covers {validFrom validUntil today : Int} :
    (Tested validFrom validUntil today ↔ Covers validFrom validUntil today) ↔
      Clear validFrom validUntil today := by
  simp only [Tested, Covers, Clear]
  omega

/-- Where an interval is tested, the day is clear of it. -/
def ClearOfInterval (W : World) (A : Authorization) (m : ℕ) : Prop :=
  (A.userType = UserType.tenant → Clear A.validFromTs A.validUntilTs (W.today m)) ∧
    (A.userType = UserType.periodicUser → A.weekdays[W.weekday m] = true →
      Clear A.validFromTs A.validUntilTs (W.today (m + 1)))

theorem judgedBy_iff {m : ℕ} :
    (JudgedBy Tested W A m ↔ JudgedBy Covers W A m) ↔ ClearOfInterval W A m := by
  rw [JudgedBy, JudgedBy, ClearOfInterval]
  split
  · rename_i htype
    simp [htype]
  · rename_i htype
    simp [htype]
  · rename_i htype
    simp [htype, tested_iff_covers]
  · rename_i htype
    simp only [htype, forall_const, ← tested_iff_covers]
    constructor
    · exact fun h => ⟨nofun, fun hday => by simpa [hday] using h⟩
    · exact fun h => and_congr_right h.2
  · rename_i htype
    simp [htype]
  · rename_i htenant hperiodic _
    exact ⟨fun _ => ⟨fun h => absurd h htenant, fun h => absurd h hperiodic⟩, fun _ => Iff.rfl⟩

theorem entitled_iff {interval : Int → Int → Int → Prop} (hp : AuthorizedFor a p s)
    (hA : Found W p s A s₁) : Entitled interval W a s ↔ JudgedBy interval W A s₁.moment := by
  constructor
  · rintro ⟨q, B, s₂, hq, hB, hjudged⟩
    obtain rfl := hp.unique hq
    rw [Found, hA, Prod.mk.injEq, Except.ok.injEq, Option.some.injEq] at hB
    obtain ⟨rfl, rfl⟩ := hB
    exact hjudged
  · exact fun h => ⟨p, A, s₁, hp, hA, h⟩

/-- **`canUseLock` decides the time-limited right exactly where the day is
clear of the interval**, of every user and at every time. -/
theorem canUseLock_decides_iff :
    (((canUseLock W a).run s).1 = .ok true ↔ Entitled Covers W a s) ↔
      ∀ p A s₁, AuthorizedFor a p s → Found W p s A s₁ → ClearOfInterval W A s₁.moment := by
  rw [canUseLock_true_iff]
  constructor
  · intro h p A s₁ hp hA
    rw [entitled_iff hp hA, entitled_iff hp hA] at h
    exact judgedBy_iff.1 h
  · intro h
    constructor
    · rintro ⟨p, A, s₁, hp, hA, hjudged⟩
      exact ⟨p, A, s₁, hp, hA, (judgedBy_iff.2 (h p A s₁ hp hA)).1 hjudged⟩
    · rintro ⟨p, A, s₁, hp, hA, hjudged⟩
      exact ⟨p, A, s₁, hp, hA, (judgedBy_iff.2 (h p A s₁ hp hA)).2 hjudged⟩

/-- A tenant from day 0 to day 1000, authorized. -/
def tenantAuthorized : Sys :=
  { Sys.initial with
    usersInfo := [⟨lit "192.168.1.5", lit "phone", .authorized, none, ⟨Vector.replicate 32 0⟩⟩]
    authorizations := fun _ => some ⟨Vector.replicate 16 0, UserType.tenant,
      Vector.replicate 32 0, Vector.replicate 7 false, 0, 1000, 0⟩ }

/-- On day 100 the tenant is refused. -/
theorem tenant_refused : ¬ ∀ (W : World) (a : CStr) (s : Sys),
    ((canUseLock W a).run s).1 = .ok true ↔ Entitled Covers W a s := by
  intro h
  have hrefused : ((canUseLock (World.still .esp32s3 100) (lit "192.168.1.5")).run
      tenantAuthorized).1 = .ok false := by decide +kernel
  have hyes := (h (World.still .esp32s3 100) (lit "192.168.1.5") tenantAuthorized).2
    ⟨lit "phone", _, _, ⟨⟨_, rfl, rfl, rfl⟩, by decide⟩, rfl, by decide, by decide⟩
  rw [hrefused] at hyes
  cases hyes

end SmartLock
