/-
**Second factors.**

A verification reads the user's record, compares the code with the time-based one and then with
the backup codes, and writes the record back as a whole: with one more failed attempt, and a lock
once there are enough of them, or with none.  A backup code that fits is marked in a statement of
its own.  The record is a copy between the statement that reads it and the one that writes it, so
verifications that overlap count their failures on the same copy, and find the same backup code
unused.

Main definitions:

* `NewApi.TwoFA`, `NewApi.BackupCode` — the record of a user and one of the codes;
* `NewApi.VerifyState`, `NewApi.verifyStep` — any number of verifications, one statement at a time;
* `NewApi.evaluated` — a step that compares a code;
* `NewApi.Guarded` — a code is compared only if too few wrong ones have been since the last
  success, or the lock of the last wrong one has expired;
* `NewApi.Undisturbed` — a code is compared on a current copy, with no other outcome outstanding.

Main results:

* `NewApi.TwoFAInv.step` — what holds between the statements of undisturbed verifications;
* `NewApi.attempts_counted` — **wrong codes are counted and a backup code is accepted once**, in
  every undisturbed run;
* `NewApi.attempts_overlap` — two runs in which verifications overlap.
-/

import NewApi.Common
import NewApi.Lib.Transition

set_option autoImplicit false

namespace NewApi

/-! ### Codes -/

def maxFailAttempts : ℕ := 5

/-- In seconds. -/
def lockoutDuration : ℤ := 300

def backupCodeLength : ℕ := 8

/-- `strings.ReplaceAll` of a character by nothing. -/
def without (c : Char) (s : String) : String := String.ofList (s.toList.filter (· ≠ c))

/-- Whether `strconv.Atoi` reads the text, for texts that are not too long for it. -/
def isInteger (s : String) : Bool :=
  let digits := match s.toList with
    | '+' :: l => l
    | '-' :: l => l
    | l => l
  !digits.isEmpty && digits.all Char.isDigit

/-- The code without blanks, if it is a number of six characters. -/
def validateNumericCode (code : String) : Option String :=
  let code := without ' ' code
  if byteLength code ≠ 6 then none else if isInteger code then some code else none

/-- The libraries that compare codes: the time-based code of a secret at a time, the hash of a
password, and the upper case of a text. -/
structure CodeChecks where
  totp : String → String → ℤ → Bool
  passwordAndHash : String → String → Bool
  toUpper : String → String

section Codes

variable (env : CodeChecks)

def validateTOTPCode (secret code : String) (now : ℤ) : Bool :=
  let cleanCode := without ' ' code
  if byteLength cleanCode ≠ 6 then false else env.totp cleanCode secret now

/-- The format of a backup code. -/
def validateBackupCode (code : String) : Bool :=
  let cleanCode := env.toUpper (without '-' code)
  if byteLength cleanCode ≠ backupCodeLength then false
  else cleanCode.toList.all fun c => ('A' ≤ c && c ≤ 'Z') || ('0' ≤ c && c ≤ '9')

def normalizeBackupCode (code : String) : String :=
  let cleanCode := env.toUpper (without '-' code)
  if byteLength cleanCode = backupCodeLength then
    String.ofList (cleanCode.toList.take 4) ++ "-" ++ String.ofList (cleanCode.toList.drop 4)
  else code

end Codes

/-! ### Records -/

/-- The record of a user. -/
structure TwoFA where
  secret : String
  isEnabled : Bool
  failedAttempts : ℕ
  lockedUntil : Option ℤ
  lastUsedAt : Option ℤ
deriving DecidableEq, Repr

structure BackupCode where
  codeHash : String
  isUsed : Bool
  usedAt : Option ℤ
deriving DecidableEq, Repr

def TwoFA.isLocked (t : TwoFA) (now : ℤ) : Bool :=
  match t.lockedUntil with
  | none => false
  | some lockUntil => decide (now < lockUntil)

def TwoFA.incrementFailedAttempts (t : TwoFA) (now : ℤ) : TwoFA :=
  { t with
    failedAttempts := t.failedAttempts + 1
    lockedUntil :=
      if maxFailAttempts ≤ t.failedAttempts + 1 then some (now + lockoutDuration)
      else t.lockedUntil }

/-- The record after a success. -/
def TwoFA.updateUsage (t : TwoFA) (now : ℤ) : TwoFA :=
  { t with failedAttempts := 0, lockedUntil := none, lastUsedAt := some now }

def BackupCode.use (bc : BackupCode) (now : ℤ) : BackupCode :=
  { bc with isUsed := true, usedAt := some now }

/-! ### Verifications -/

/-- A code, and whether it may only be a time-based one. -/
structure VerifyRequest where
  code : String
  totpOnly : Bool
deriving DecidableEq, Repr

/-- Where a verification stands, with its copy of the record. -/
inductive VerifyPhase where
  | idle
  | totp (t : TwoFA) (req : VerifyRequest)
  | totpFailed (t : TwoFA) (req : VerifyRequest)
  | totpPassed (t : TwoFA)
  | backup (t : TwoFA) (req : VerifyRequest)
  | backupFailed (t : TwoFA)
  | marking (t : TwoFA) (i : ℕ)
  | backupPassed (t : TwoFA)
  | done (valid : Bool)
deriving DecidableEq, Repr

/-- What a verification does once its time-based code is not valid. -/
def VerifyPhase.afterTotp (t : TwoFA) (req : VerifyRequest) : VerifyPhase :=
  if req.totpOnly then .done false else .backup t req

/-- The record a verification has still to write after it has compared a code. -/
def VerifyPhase.pending : VerifyPhase → Option TwoFA
  | .totpFailed t _ => some t
  | .totpPassed t => some t
  | .backupFailed t => some t
  | .marking t _ => some t
  | .backupPassed t => some t
  | _ => none

/-- The record and the codes of a user, and the verifications.  The times of the wrong codes that
have been compared since the last success, the last one first, and how often each backup code has
been accepted, are noted on the side. -/
structure VerifyState where
  row : TwoFA
  codes : List BackupCode
  phase : ℕ → VerifyPhase
  wrongs : List ℤ
  accepted : ℕ → ℕ

/-- What the clock shows when the lock is looked at, and when the outcome is noted. -/
structure ClockReadings where
  checked : ℤ
  noted : ℤ

inductive VerifyAction where
  /-- A verification reads the record. -/
  | start (v : ℕ) (req : VerifyRequest)
  /-- It goes on to its next statement. -/
  | proceed (v : ℕ) (clock : ClockReadings)

section Step

variable (env : CodeChecks)

/-- The first code that is not used and fits. -/
def findBackupCode (codes : List BackupCode) (code : String) : Option ℕ :=
  codes.findIdx? fun bc =>
    !bc.isUsed && env.passwordAndHash (normalizeBackupCode env code) bc.codeHash

def VerifyState.become (s : VerifyState) (v : ℕ) (p : VerifyPhase) : VerifyState :=
  { s with phase := Function.update s.phase v p }

def verifyStep (s : VerifyState) : VerifyAction → VerifyState
  | .start v req =>
    match s.phase v with
    | .idle => s.become v (if s.row.isEnabled then .totp s.row req else .done false)
    | _ => s
  | .proceed v clock =>
    match s.phase v with
    | .totp t req =>
      match validateNumericCode req.code with
      | none => s.become v (.afterTotp t req)
      | some cleanCode =>
        if t.isLocked clock.checked then s.become v (.afterTotp t req)
        else if ¬ validateTOTPCode env t.secret cleanCode clock.checked then
          { s.become v (.totpFailed (t.incrementFailedAttempts clock.noted) req) with
            wrongs := clock.noted :: s.wrongs }
        else
          { s.become v (.totpPassed (t.updateUsage clock.noted)) with wrongs := [] }
    | .totpFailed t req => { s.become v (.afterTotp t req) with row := t }
    | .totpPassed t => { s.become v (.done true) with row := t }
    | .backup t req =>
      if t.isLocked clock.checked then s.become v (.done false)
      else if ¬ validateBackupCode env req.code then s.become v (.done false)
      else
        match findBackupCode env s.codes req.code with
        | none =>
          { s.become v (.backupFailed (t.incrementFailedAttempts clock.noted)) with
            wrongs := clock.noted :: s.wrongs }
        | some i => s.become v (.marking t i)
    | .backupFailed t => { s.become v (.done false) with row := t }
    | .marking t i =>
      { s.become v (.backupPassed (t.updateUsage clock.noted)) with
        codes := s.codes.modify i (·.use clock.noted)
        wrongs := []
        accepted := Function.update s.accepted i (s.accepted i + 1) }
    | .backupPassed t => { s.become v (.done true) with row := t }
    | _ => s

/-- The copy on which a step compares a code. -/
def evaluated (s : VerifyState) : VerifyAction → Option (TwoFA × ℤ)
  | .start _ _ => none
  | .proceed v clock =>
    match s.phase v with
    | .totp t req =>
      if (validateNumericCode req.code).isSome ∧ ¬ t.isLocked clock.checked then
        some (t, clock.checked)
      else none
    | .backup t req =>
      if ¬ t.isLocked clock.checked ∧ validateBackupCode env req.code then
        some (t, clock.checked)
      else none
    | _ => none

/-- A code is compared only if fewer wrong ones than allowed have been since the last success, or
after the lock that the last of them has set. -/
def Guarded (s : VerifyState) (a : VerifyAction) : Prop :=
  ∀ e ∈ evaluated env s a, maxFailAttempts ≤ s.wrongs.length →
    ∃ last ∈ s.wrongs.head?, last + lockoutDuration ≤ e.2

/-- A code is compared on a copy that is still what is stored, and while no other verification
that has compared a code has still to write the outcome. -/
def Undisturbed (s : VerifyState) (a : VerifyAction) : Prop :=
  ∀ e ∈ evaluated env s a, e.1 = s.row ∧ ∀ w, (s.phase w).pending = none

end Step

/-- No verification has begun: no wrong code has been compared and no backup code accepted. -/
def VerifyState.init (row : TwoFA) (codes : List BackupCode) : VerifyState where
  row := row
  codes := codes
  phase _ := .idle
  wrongs := []
  accepted _ := 0

/-! ### What holds between the statements -/

/-- A record counts the wrong codes since the last success, and is locked once there are enough. -/
structure Counts (wrongs : List ℤ) (t : TwoFA) : Prop where
  counted : wrongs.length ≤ t.failedAttempts
  locked : maxFailAttempts ≤ wrongs.length →
    ∃ last ∈ wrongs.head?, t.lockedUntil = some (last + lockoutDuration)

theorem counts_nil (t : TwoFA) : Counts [] t := by
  refine ⟨Nat.zero_le _, fun h => ?_⟩
  simp [maxFailAttempts] at h

/-- One more wrong code. -/
theorem Counts.increment {wrongs : List ℤ} {t : TwoFA} (h : Counts wrongs t) (now : ℤ) :
    Counts (now :: wrongs) (t.incrementFailedAttempts now) := by
  have hcounted := h.counted
  constructor
  · simp only [TwoFA.incrementFailedAttempts, List.length_cons]
    omega
  · intro hmax
    rw [List.length_cons] at hmax
    have hfailed : maxFailAttempts ≤ t.failedAttempts + 1 := by omega
    exact ⟨now, rfl, by simp only [TwoFA.incrementFailedAttempts, if_pos hfailed]⟩

/-- **What holds between the statements of undisturbed verifications.** -/
structure TwoFAInv (s : VerifyState) : Prop where
  /-- At most one verification has an outcome to write. -/
  single : ∀ v w, (s.phase v).pending.isSome → (s.phase w).pending.isSome → v = w
  pending : ∀ v, ∀ t ∈ (s.phase v).pending, Counts s.wrongs t
  stored : (∀ v, (s.phase v).pending = none) → Counts s.wrongs s.row
  marking : ∀ v t i, s.phase v = .marking t i → ∃ bc ∈ s.codes[i]?, bc.isUsed = false
  accepted : ∀ i, s.accepted i ≤ 1
  used : ∀ i, s.accepted i ≠ 0 → ∀ bc ∈ s.codes[i]?, bc.isUsed = true

theorem twoFAInv_init (row : TwoFA) (codes : List BackupCode) :
    TwoFAInv (.init row codes) where
  single _ _ h := by cases h
  pending _ _ h := by cases h
  stored _ := counts_nil row
  marking _ _ _ h := by cases h
  accepted _ := Nat.zero_le _
  used _ h := absurd rfl h

section Invariant

variable {env : CodeChecks} {s : VerifyState} {v : ℕ}

@[simp] theorem VerifyState.become_phase_self (s : VerifyState) (v : ℕ) (p : VerifyPhase) :
    (s.become v p).phase v = p := Function.update_self ..

theorem VerifyState.become_phase_of_ne (s : VerifyState) {v w : ℕ} (h : w ≠ v) (p : VerifyPhase) :
    (s.become v p).phase w = s.phase w := Function.update_of_ne h ..

@[simp] theorem afterTotp_pending (t : TwoFA) (req : VerifyRequest) :
    (VerifyPhase.afterTotp t req).pending = none := by
  rw [VerifyPhase.afterTotp]
  split <;> rfl

theorem ne_marking_of_pending {p : VerifyPhase} (h : p.pending = none) (t : TwoFA) (i : ℕ) :
    p ≠ .marking t i := by
  rintro rfl
  cases h

/-- A step that neither compares a code nor writes anything. -/
theorem TwoFAInv.quiet (h : TwoFAInv s) (hv : (s.phase v).pending = none) {p : VerifyPhase}
    (hp : p.pending = none) : TwoFAInv (s.become v p) := by
  have hsame : ∀ w, ((s.become v p).phase w).pending = (s.phase w).pending := by
    intro w
    by_cases hw : w = v
    · rw [hw, VerifyState.become_phase_self, hp, hv]
    · rw [s.become_phase_of_ne hw]
  refine ⟨?_, ?_, ?_, ?_, h.accepted, h.used⟩
  · intro u w hu hw
    rw [hsame] at hu hw
    exact h.single u w hu hw
  · intro w t ht
    rw [hsame] at ht
    exact h.pending w t ht
  · intro hnone
    refine h.stored fun w => ?_
    rw [← hsame w]
    exact hnone w
  · intro w t i hw
    by_cases hwv : w = v
    · rw [hwv, VerifyState.become_phase_self] at hw
      exact absurd hw (ne_marking_of_pending hp t i)
    · rw [s.become_phase_of_ne hwv] at hw
      exact h.marking w t i hw

/-- A code is compared while no outcome is outstanding. -/
theorem TwoFAInv.evaluate (h : TwoFAInv s) (hnone : ∀ w, (s.phase w).pending = none)
    {p : VerifyPhase} {t : TwoFA} {wrongs : List ℤ} (hp : p.pending = some t)
    (hcounts : Counts wrongs t)
    (hmark : ∀ t' i, p = .marking t' i → ∃ bc ∈ s.codes[i]?, bc.isUsed = false) :
    TwoFAInv { s.become v p with wrongs := wrongs } := by
  have honly : ∀ w, ((s.become v p).phase w).pending.isSome → w = v := by
    intro w hw
    by_contra hne
    rw [s.become_phase_of_ne hne, hnone w] at hw
    cases hw
  refine ⟨?_, ?_, ?_, ?_, h.accepted, h.used⟩
  · intro u w hu hw
    exact (honly u hu).trans (honly w hw).symm
  · intro w t' ht'
    have hw := honly w (Option.isSome_of_mem ht')
    rw [hw] at ht'
    change t' ∈ ((s.become v p).phase v).pending at ht'
    rw [VerifyState.become_phase_self, hp] at ht'
    cases ht'
    exact hcounts
  · intro hall
    have hv : ((s.become v p).phase v).pending = none := hall v
    rw [VerifyState.become_phase_self, hp] at hv
    cases hv
  · intro w t' i hw
    change (s.become v p).phase w = _ at hw
    by_cases hwv : w = v
    · rw [hwv, VerifyState.become_phase_self] at hw
      exact hmark t' i hw
    · rw [s.become_phase_of_ne hwv] at hw
      exact absurd hw (ne_marking_of_pending (hnone w) t' i)

/-- The outcome is written. -/
theorem TwoFAInv.write (h : TwoFAInv s) {t : TwoFA} (hv : (s.phase v).pending = some t)
    {p : VerifyPhase} (hp : p.pending = none) :
    TwoFAInv { s.become v p with row := t } := by
  have hnone : ∀ w, ((s.become v p).phase w).pending = none := by
    intro w
    by_cases hw : w = v
    · rw [hw, VerifyState.become_phase_self, hp]
    · rw [s.become_phase_of_ne hw]
      cases hpending : (s.phase w).pending with
      | none => rfl
      | some t' =>
        have hsingle := h.single w v (by rw [hpending]; rfl) (by rw [hv]; rfl)
        exact absurd hsingle hw
  refine ⟨?_, ?_, ?_, ?_, h.accepted, h.used⟩
  · intro u w hu
    rw [hnone u] at hu
    cases hu
  · intro w t' ht'
    rw [hnone w] at ht'
    cases ht'
  · intro _
    exact h.pending v t hv
  · intro w t' i hw
    exact absurd hw (ne_marking_of_pending (hnone w) t' i)

/-- The backup code that has been found is marked. -/
theorem TwoFAInv.mark (h : TwoFAInv s) {t : TwoFA} {i : ℕ} (hv : s.phase v = .marking t i)
    (now : ℤ) :
    TwoFAInv { s.become v (.backupPassed (t.updateUsage now)) with
      codes := s.codes.modify i (·.use now)
      wrongs := []
      accepted := Function.update s.accepted i (s.accepted i + 1) } := by
  obtain ⟨bc, hbc, hunused⟩ := h.marking v t i hv
  -- a code that is not used has not been accepted
  have hzero : s.accepted i = 0 := by
    by_contra hne
    rw [h.used i hne bc hbc] at hunused
    cases hunused
  have hpending : ∀ w, w ≠ v → (s.phase w).pending = none := by
    intro w hw
    cases hsome : (s.phase w).pending with
    | none => rfl
    | some t' =>
      have hsingle := h.single w v (by rw [hsome]; rfl) (by rw [hv]; rfl)
      exact absurd hsingle hw
  have honly : ∀ w, ((s.become v (.backupPassed (t.updateUsage now))).phase w).pending.isSome →
      w = v := by
    intro w hw
    by_contra hne
    rw [s.become_phase_of_ne hne, hpending w hne] at hw
    cases hw
  refine ⟨?_, ?_, ?_, ?_, ?_, ?_⟩
  · intro u w hu hw
    exact (honly u hu).trans (honly w hw).symm
  · intro w t' _
    exact counts_nil t'
  · intro _
    exact counts_nil _
  · intro w t' j hw
    change (s.become v _).phase w = _ at hw
    by_cases hwv : w = v
    · rw [hwv, VerifyState.become_phase_self] at hw
      cases hw
    · rw [s.become_phase_of_ne hwv] at hw
      exact absurd hw (ne_marking_of_pending (hpending w hwv) t' j)
  · intro j
    by_cases hj : j = i
    · subst hj
      simp [hzero]
    · simp only [Function.update_of_ne hj]
      exact h.accepted j
  · intro j hj bc' hbc'
    rw [List.getElem?_modify] at hbc'
    by_cases hij : i = j
    · subst hij
      simp only [if_true] at hbc'
      obtain ⟨b, -, rfl⟩ := Option.map_eq_some_iff.1 hbc'
      rfl
    · simp only [if_neg hij, id_map'] at hbc'
      simp only [Function.update_of_ne (Ne.symm hij)] at hj
      exact h.used j hj bc' hbc'

/-- A backup code that is found is not used. -/
theorem findBackupCode_unused {codes : List BackupCode} {code : String} {i : ℕ}
    (h : findBackupCode env codes code = some i) : ∃ bc ∈ codes[i]?, bc.isUsed = false := by
  obtain ⟨hlt, hp, -⟩ := List.findIdx?_eq_some_iff_getElem.1 h
  refine ⟨codes[i], List.getElem?_eq_getElem hlt, ?_⟩
  simp only [Bool.and_eq_true, Bool.not_eq_true'] at hp
  exact hp.1

/-- **Undisturbed steps keep what holds between the statements.** -/
theorem TwoFAInv.step (s : VerifyState) (a : VerifyAction) (h : TwoFAInv s)
    (hok : Undisturbed env s a) : TwoFAInv (verifyStep env s a) := by
  cases a with
  | start v req =>
    simp only [verifyStep]
    split
    · rename_i hv
      refine h.quiet (by rw [hv]; rfl) ?_
      split <;> rfl
    · exact h
  | proceed v clock =>
    simp only [verifyStep]
    split
    · rename_i t req hv
      have hquiet : (s.phase v).pending = none := by rw [hv]; rfl
      split
      · exact h.quiet hquiet (afterTotp_pending t req)
      · rename_i cleanCode hclean
        by_cases hlocked : t.isLocked clock.checked = true
        · rw [if_pos hlocked]
          exact h.quiet hquiet (afterTotp_pending t req)
        · rw [if_neg hlocked]
          obtain ⟨hrow, hnone⟩ := hok (t, clock.checked)
            (by simp [evaluated, hv, hclean, hlocked])
          have hcounts : Counts s.wrongs t := by
            have hstored := h.stored hnone
            rwa [← hrow] at hstored
          split
          · exact h.evaluate hnone rfl (hcounts.increment clock.noted) nofun
          · exact h.evaluate hnone rfl (counts_nil _) nofun
    · rename_i t req hv
      exact h.write (by rw [hv]; rfl) (afterTotp_pending t req)
    · rename_i t hv
      exact h.write (by rw [hv]; rfl) rfl
    · rename_i t req hv
      have hquiet : (s.phase v).pending = none := by rw [hv]; rfl
      by_cases hlocked : t.isLocked clock.checked = true
      · rw [if_pos hlocked]
        exact h.quiet hquiet rfl
      · rw [if_neg hlocked]
        by_cases hformat : validateBackupCode env req.code = true
        · rw [if_neg (by simp [hformat])]
          obtain ⟨hrow, hnone⟩ := hok (t, clock.checked)
            (by simp [evaluated, hv, hformat, hlocked])
          have hcounts : Counts s.wrongs t := by
            have hstored := h.stored hnone
            rwa [← hrow] at hstored
          split
          · exact h.evaluate hnone rfl (hcounts.increment clock.noted) nofun
          · rename_i i hfind
            refine h.evaluate hnone rfl hcounts ?_
            intro t' j heq
            cases heq
            exact findBackupCode_unused hfind
        · rw [if_pos hformat]
          exact h.quiet hquiet rfl
    · rename_i t hv
      exact h.write (by rw [hv]; rfl) rfl
    · rename_i t i hv
      exact h.mark hv clock.noted
    · rename_i t hv
      exact h.write (by rw [hv]; rfl) rfl
    · exact h

theorem isLocked_of_lockedUntil {t : TwoFA} {lockUntil now : ℤ}
    (h : t.lockedUntil = some lockUntil) : t.isLocked now = decide (now < lockUntil) := by
  rw [TwoFA.isLocked, h]

/-- The copy a code is compared on is not locked. -/
theorem not_isLocked_of_evaluated {a : VerifyAction} {e : TwoFA × ℤ}
    (h : e ∈ evaluated env s a) : ¬ e.1.isLocked e.2 = true := by
  cases a with
  | start v req => cases h
  | proceed v clock =>
    simp only [evaluated] at h
    split at h
    · split at h
      · rename_i hcond
        cases h
        exact hcond.2
      · cases h
    · split at h
      · rename_i hcond
        cases h
        exact hcond.1
      · cases h
    · cases h

theorem TwoFAInv.guarded (s : VerifyState) (a : VerifyAction) (h : TwoFAInv s)
    (hok : Undisturbed env s a) : Guarded env s a := by
  intro e he hmax
  obtain ⟨hrow, hnone⟩ := hok e he
  obtain ⟨last, hlast, hlocked⟩ := (h.stored hnone).locked hmax
  refine ⟨last, hlast, ?_⟩
  have hopen := not_isLocked_of_evaluated he
  rw [hrow, isLocked_of_lockedUntil hlocked, decide_eq_true_eq] at hopen
  omega

/-- **In undisturbed runs wrong codes are counted and a backup code is accepted once.** -/
theorem attempts_counted (env : CodeChecks) (row : TwoFA) (codes : List BackupCode)
    {actions : List VerifyAction}
    (hok : Transition.Along (verifyStep env) (Undisturbed env) (.init row codes) actions) :
    (∀ i, (Transition.run (verifyStep env) (.init row codes) actions).accepted i ≤ 1) ∧
      Transition.Along (verifyStep env) (Guarded env) (.init row codes) actions := by
  have hinit := twoFAInv_init row codes
  constructor
  · exact (Transition.run_invariant TwoFAInv.step hinit hok).accepted
  · exact Transition.along_of_invariant TwoFAInv.step TwoFAInv.guarded hinit hok

end Invariant

/-! ### Verifications that overlap -/

/-- A time-based code of the secret, whatever the time, and hashes that are the codes
themselves. -/
def plainChecks : CodeChecks where
  totp code secret _ := code = secret
  passwordAndHash password hash := password = hash
  toUpper s := s

def plainRecord : TwoFA where
  secret := "271828"
  isEnabled := true
  failedAttempts := 0
  lockedUntil := none
  lastUsedAt := none

def plainCodes : List BackupCode := [⟨"ABCD-1234", false, none⟩]

/-- A wrong code is counted. -/
theorem attempts_counted_once :
    let actions := [.start 0 ⟨"123456", false⟩, .proceed 0 ⟨10, 10⟩, .proceed 0 ⟨10, 10⟩]
    (∀ i, (Transition.run (verifyStep plainChecks)
        (.init plainRecord plainCodes) actions).accepted i ≤ 1) ∧
      Transition.Along (verifyStep plainChecks) (Guarded plainChecks)
        (.init plainRecord plainCodes) actions := by
  refine attempts_counted plainChecks plainRecord plainCodes ?_
  simp only [Transition.along_cons, Transition.along_nil, and_true]
  refine ⟨?_, ?_, ?_⟩
  · intro e he
    cases he
  · intro e he
    have hcopy : e = (plainRecord, 10) := by
      have heval : evaluated plainChecks (verifyStep plainChecks
          (.init plainRecord plainCodes) (.start 0 ⟨"123456", false⟩)) (.proceed 0 ⟨10, 10⟩) =
          some (plainRecord, 10) := by decide
      rw [heval] at he
      exact (Option.some.inj he).symm
    subst hcopy
    refine ⟨rfl, fun w => ?_⟩
    by_cases hw : w = 0
    · rw [hw]
      rfl
    · exact congrArg VerifyPhase.pending
        (VerifyState.become_phase_of_ne (.init plainRecord plainCodes) hw _)
  · intro e he
    have heval : evaluated plainChecks (verifyStep plainChecks (verifyStep plainChecks
        (.init plainRecord plainCodes) (.start 0 ⟨"123456", false⟩)) (.proceed 0 ⟨10, 10⟩))
        (.proceed 0 ⟨10, 10⟩) = none := by decide
    rw [heval] at he
    cases he

instance (env : CodeChecks) (s : VerifyState) (a : VerifyAction) :
    Decidable (Guarded env s a) := by
  unfold Guarded
  infer_instance

/-- **Verifications that overlap**: two of them accept the same backup code, and six wrong codes
are compared and counted as one when all of them have read the record before. -/
theorem attempts_overlap :
    let init := VerifyState.init plainRecord plainCodes
    let clock : ClockReadings := ⟨10, 10⟩
    let twice : List VerifyAction :=
      [0, 1].map (VerifyAction.start · ⟨"ABCD-1234", false⟩) ++
        [0, 1].map (VerifyAction.proceed · clock) ++ [0, 1].map (VerifyAction.proceed · clock) ++
        [0, 1].map (VerifyAction.proceed · clock)
    let guesses : List VerifyAction :=
      (List.range 6).map (VerifyAction.start · ⟨"123456", false⟩) ++
        (List.range 6).map (VerifyAction.proceed · clock) ++
        (List.range 6).map (VerifyAction.proceed · clock)
    let guessed := Transition.run (verifyStep plainChecks) init guesses
    (Transition.run (verifyStep plainChecks) init twice).accepted 0 = 2 ∧
      ¬ Transition.Along (verifyStep plainChecks) (Guarded plainChecks) init guesses ∧
      guessed.wrongs.length = 6 ∧ guessed.row.failedAttempts = 1 ∧
      guessed.row.lockedUntil = none := by
  decide

end NewApi
