import AtomicMemory.Core.Errors
import AtomicMemory.Lib.CallTree
import Mathlib.Algebra.Order.Field.Rat
import Mathlib.Algebra.Order.Ring.Int
import Mathlib.Algebra.Order.Ring.Unbundled.Basic
import Mathlib.Data.Nat.Find

-- A callable is called until it succeeds, fails for good or has been called often enough, with
-- a sleep after every attempt but the last.

namespace AtomicMemory

/-- A configuration that `__post_init__` has let pass. Delays are exact seconds. -/
structure RetryConfig where
  maxAttempts : ℤ
  initialDelaySeconds : ℚ
  maxDelaySeconds : ℚ
  backoffMultiplier : ℚ
  maxAttempts_pos : 1 ≤ maxAttempts
  initialDelay_nonneg : 0 ≤ initialDelaySeconds
  initialDelay_le : initialDelaySeconds ≤ maxDelaySeconds
  backoffMultiplier_pos : 0 < backoffMultiplier

namespace RetryConfig

/-- The constructor with the checks of `__post_init__`. -/
def make (maxAttempts : ℤ) (initialDelaySeconds maxDelaySeconds backoffMultiplier : ℚ) :
    Except PyError RetryConfig :=
  if hattempts : maxAttempts < 1 then .error (.valueError "max_attempts must be >= 1")
  else if hinitial : initialDelaySeconds < 0 then
    .error (.valueError "initial_delay_seconds must be >= 0")
  else if hmax : maxDelaySeconds < initialDelaySeconds then
    .error (.valueError "max_delay_seconds must be >= initial_delay_seconds")
  else if hmultiplier : backoffMultiplier ≤ 0 then
    .error (.valueError "backoff_multiplier must be > 0")
  else
    .ok ⟨maxAttempts, initialDelaySeconds, maxDelaySeconds, backoffMultiplier, not_lt.mp hattempts,
      not_lt.mp hinitial, not_lt.mp hmax, not_le.mp hmultiplier⟩

theorem make_self (config : RetryConfig) :
    make config.maxAttempts config.initialDelaySeconds config.maxDelaySeconds
      config.backoffMultiplier = .ok config := by
  unfold make
  rw [dif_neg (not_lt.mpr config.maxAttempts_pos), dif_neg (not_lt.mpr config.initialDelay_nonneg),
    dif_neg (not_lt.mpr config.initialDelay_le), dif_neg (not_le.mpr config.backoffMultiplier_pos)]

def default : RetryConfig :=
  ⟨3, 1 / 4, 5, 2, by decide, by decide +kernel, by decide +kernel, by decide +kernel⟩

/-- The pause between attempt `i` and the next. -/
def backoff (config : RetryConfig) (i : ℕ) : ℚ :=
  min (config.initialDelaySeconds * config.backoffMultiplier ^ (i - 1)) config.maxDelaySeconds

theorem backoff_nonneg (config : RetryConfig) (i : ℕ) : 0 ≤ config.backoff i :=
  le_min (mul_nonneg config.initialDelay_nonneg (pow_nonneg config.backoffMultiplier_pos.le _))
    (config.initialDelay_nonneg.trans config.initialDelay_le)

end RetryConfig

/-- The loop of `_delays`, with the rounds that are left. -/
def delaysFrom (config : RetryConfig) : ℕ → ℚ → List ℚ → List ℚ
  | 0, _, delays => delays
  | rounds + 1, delay, delays =>
    delaysFrom config rounds (delay * config.backoffMultiplier)
      (delays ++ [min delay config.maxDelaySeconds])

def delays (config : RetryConfig) : List ℚ :=
  delaysFrom config (config.maxAttempts - 1).toNat config.initialDelaySeconds []

theorem delaysFrom_eq (config : RetryConfig) (rounds i : ℕ) (delays : List ℚ) :
    delaysFrom config rounds (config.initialDelaySeconds * config.backoffMultiplier ^ i) delays =
      delays ++ (List.range' (i + 1) rounds).map config.backoff := by
  induction rounds generalizing i delays with
  | zero => simp [delaysFrom]
  | succ rounds ih =>
    rw [delaysFrom, mul_assoc, ← pow_succ, ih (i + 1), List.append_assoc, List.range'_succ]
    rfl

theorem delays_eq (config : RetryConfig) :
    delays config = (List.range' 1 (config.maxAttempts - 1).toNat).map config.backoff := by
  have h := delaysFrom_eq config (config.maxAttempts - 1).toNat 0 []
  rwa [pow_zero, mul_one, List.nil_append] at h

example : delays .default = [1 / 4, 1 / 2] := by decide +kernel

theorem delays_getElem? (config : RetryConfig) {attempt : ℕ}
    (h : (attempt : ℤ) < config.maxAttempts - 1) :
    (delays config)[attempt]? = some (config.backoff (attempt + 1)) := by
  rw [delays_eq, List.getElem?_map, List.getElem?_range' (by omega), Nat.one_mul, Nat.add_comm]
  rfl

inductive RetryCall
  | func
  | sleep (seconds : ℚ)

def RetryCall.isFunc : RetryCall → Bool
  | func => true
  | sleep _ => false

@[simp] theorem RetryCall.isFunc_func : func.isFunc = true := rfl

@[simp] theorem RetryCall.isFunc_sleep (seconds : ℚ) : (sleep seconds).isFunc = false := rfl

/-- What a call returns when it does not raise. -/
@[reducible] def RetryCall.Value (α : Type) : RetryCall → Type
  | func => α
  | sleep _ => Unit

section

variable {ε α : Type}

abbrev RetryAnswer (ε α : Type) (call : RetryCall) : Type := Except ε (call.Value α)

/-- How a call of `with_retry` ends. -/
inductive RetryEnd (ε α : Type)
  /-- By the `return` or the `raise` of the loop. -/
  | outcome (outcome : Except ε α)
  | sleepRaised (e : ε)
  /-- `delays[attempt]` is out of range. -/
  | indexError
  /-- By the statements after the loop. -/
  | assertionError
  | lastRaised (e : ε)

def RetryEnd.InLoop : RetryEnd ε α → Prop
  | outcome _ | sleepRaised _ => True
  | indexError | assertionError | lastRaised _ => False

/-- `should_retry is None or not should_retry(exc)`. -/
def rejects (shouldRetry : Option (ε → Bool)) (exc : ε) : Bool :=
  match shouldRetry with
  | none => true
  | some retry => !retry exc

/-- The attempts that are left of `range(max_attempts)`, from this one on. -/
def attempts (config : RetryConfig) (shouldRetry : Option (ε → Bool)) (delays : List ℚ) :
    ℕ → ℕ → Option ε → CallTree RetryCall (RetryAnswer ε α) (RetryEnd ε α)
  | 0, _, none => .ends .assertionError
  | 0, _, some lastExc => .ends (.lastRaised lastExc)
  | left + 1, attempt, _ => .calls .func fun
    | .ok value => .ends (.outcome (.ok value))
    | .error exc =>
      let isLast := (attempt : ℤ) = config.maxAttempts - 1
      if isLast ∨ rejects shouldRetry exc = true then .ends (.outcome (.error exc))
      else match delays[attempt]? with
        | none => .ends .indexError
        | some delay => .calls (.sleep delay) fun
          | .ok _ => attempts config shouldRetry delays left (attempt + 1) (some exc)
          | .error e => .ends (.sleepRaised e)

def withRetry (config : Option RetryConfig) (shouldRetry : Option (ε → Bool)) :
    CallTree RetryCall (RetryAnswer ε α) (RetryEnd ε α) :=
  let cfg := config.getD .default
  attempts cfg shouldRetry (delays cfg) cfg.maxAttempts.toNat 0 none

/-- The attempts of `awith_retry`, whose calls are awaited. -/
def asyncAttempts (config : RetryConfig) (shouldRetry : Option (ε → Bool)) (delays : List ℚ) :
    ℕ → ℕ → Option ε → CallTree RetryCall (RetryAnswer ε α) (RetryEnd ε α)
  | 0, _, none => .ends .assertionError
  | 0, _, some lastExc => .ends (.lastRaised lastExc)
  | left + 1, attempt, _ => .calls .func fun
    | .ok value => .ends (.outcome (.ok value))
    | .error exc =>
      let isLast := (attempt : ℤ) = config.maxAttempts - 1
      if isLast ∨ rejects shouldRetry exc = true then .ends (.outcome (.error exc))
      else match delays[attempt]? with
        | none => .ends .indexError
        | some delay => .calls (.sleep delay) fun
          | .ok _ => asyncAttempts config shouldRetry delays left (attempt + 1) (some exc)
          | .error e => .ends (.sleepRaised e)

def awithRetry (config : Option RetryConfig) (shouldRetry : Option (ε → Bool)) :
    CallTree RetryCall (RetryAnswer ε α) (RetryEnd ε α) :=
  let cfg := config.getD .default
  asyncAttempts cfg shouldRetry (delays cfg) cfg.maxAttempts.toNat 0 none

theorem asyncAttempts_eq (config : RetryConfig) (shouldRetry : Option (ε → Bool)) (delays : List ℚ)
    (left attempt : ℕ) (lastExc : Option ε) :
    (asyncAttempts config shouldRetry delays left attempt lastExc : CallTree RetryCall
      (RetryAnswer ε α) (RetryEnd ε α)) = attempts config shouldRetry delays left attempt lastExc := by
  induction left generalizing attempt lastExc with
  | zero => cases lastExc <;> rfl
  | succ left ih => simp only [asyncAttempts, attempts, ih]

theorem awithRetry_eq (config : Option RetryConfig) (shouldRetry : Option (ε → Bool)) :
    (awithRetry config shouldRetry : CallTree RetryCall (RetryAnswer ε α) (RetryEnd ε α)) =
      withRetry config shouldRetry := asyncAttempts_eq _ _ _ _ _ _

/-- The attempt succeeds, raises what is not tried again, or is the last. -/
def Stops (config : RetryConfig) (shouldRetry : Option (ε → Bool)) (outcome : ℕ → Except ε α)
    (i : ℕ) : Prop :=
  (∃ value, outcome i = .ok value) ∨
    (∃ exc, outcome i = .error exc ∧ rejects shouldRetry exc = true) ∨
    (i : ℤ) = config.maxAttempts

/-- `func` is answered by the outcome of the attempt, and the sleep returns. -/
def answers (outcome : ℕ → Except ε α) (before : List (Sigma (RetryAnswer ε α))) :
    (call : RetryCall) → RetryAnswer ε α call
  | .func => outcome (before.countP (·.1.isFunc) + 1)
  | .sleep _ => .ok ()

/-- The attempts from one on to the `m`th, with a sleep after each but the last. -/
def traceFrom (config : RetryConfig) (outcome : ℕ → Except ε α) (first m : ℕ) :
    List (Sigma (RetryAnswer ε α)) :=
  ((List.range' first (m - first)).flatMap fun i =>
    [⟨.func, outcome i⟩, ⟨.sleep (config.backoff i), .ok ()⟩]) ++ [⟨.func, outcome m⟩]

theorem not_stops {config : RetryConfig} {shouldRetry : Option (ε → Bool)}
    {outcome : ℕ → Except ε α} {i : ℕ} (h : ¬Stops config shouldRetry outcome i) :
    ∃ exc, outcome i = .error exc ∧ rejects shouldRetry exc = false ∧
      (i : ℤ) ≠ config.maxAttempts := by
  obtain ⟨hvalue, hrest⟩ := not_or.mp h
  obtain ⟨hrejected, hlast⟩ := not_or.mp hrest
  cases hi : outcome i with
  | ok value => exact absurd ⟨value, hi⟩ hvalue
  | error exc =>
    exact ⟨exc, rfl, Bool.eq_false_iff.mpr fun hreject => hrejected ⟨exc, hi, hreject⟩, hlast⟩

theorem traceFrom_self (config : RetryConfig) (outcome : ℕ → Except ε α) (m : ℕ) :
    traceFrom config outcome m m = [⟨.func, outcome m⟩] := by
  rw [traceFrom, Nat.sub_self]
  rfl

theorem traceFrom_step (config : RetryConfig) (outcome : ℕ → Except ε α) {first m : ℕ}
    (h : first < m) : traceFrom config outcome first m =
      ⟨.func, outcome first⟩ :: ⟨.sleep (config.backoff first), .ok ()⟩ ::
        traceFrom config outcome (first + 1) m := by
  have hlength : m - first = (m - (first + 1)) + 1 := by omega
  rw [traceFrom, hlength, List.range'_succ]
  rfl

/-- One call of `func` for each attempt. -/
theorem countP_traceFrom (config : RetryConfig) (outcome : ℕ → Except ε α) {first m : ℕ}
    (h : first ≤ m) :
    (traceFrom config outcome first m).countP (·.1.isFunc) = m + 1 - first := by
  induction h using Nat.decreasingInduction with
  | self =>
    rw [traceFrom_self]
    simp
  | of_succ first hlt ih =>
    rw [traceFrom_step config outcome hlt, List.countP_cons, List.countP_cons, ih]
    simp only [RetryCall.isFunc_func, RetryCall.isFunc_sleep, if_true, Bool.false_eq_true, if_false]
    omega

theorem perform_attempts_stop {config : RetryConfig} {shouldRetry : Option (ε → Bool)}
    {outcome : ℕ → Except ε α} {left attempt : ℕ} {before : List (Sigma (RetryAnswer ε α))}
    (hcount : before.countP (·.1.isFunc) = attempt)
    (hstops : Stops config shouldRetry outcome (attempt + 1)) (lastExc : Option ε) :
    (attempts config shouldRetry (delays config) (left + 1) attempt lastExc).perform
      (answers outcome) before =
        ([⟨.func, outcome (attempt + 1)⟩], .outcome (outcome (attempt + 1))) := by
  have hanswer : answers outcome before .func = outcome (attempt + 1) := by rw [answers, hcount]
  rw [attempts, CallTree.perform]
  simp only [hanswer]
  cases hi : outcome (attempt + 1) with
  | ok value => rfl
  | error exc =>
    have hends : (attempt : ℤ) = config.maxAttempts - 1 ∨ rejects shouldRetry exc = true := by
      obtain ⟨value, hvalue⟩ | ⟨exc', hexc, hreject⟩ | hlast := hstops
      · rw [hi] at hvalue
        cases hvalue
      · rw [hi] at hexc
        cases hexc
        exact .inr hreject
      · exact .inl (by omega)
    simp only [if_pos hends]
    rfl

/-- After an attempt that does not stop comes a sleep, and then the rest of the attempts. -/
theorem perform_attempts_next {config : RetryConfig} {shouldRetry : Option (ε → Bool)}
    {outcome : ℕ → Except ε α} {left attempt : ℕ} {before : List (Sigma (RetryAnswer ε α))}
    (hleft : attempt + 1 + left = config.maxAttempts.toNat)
    (hcount : before.countP (·.1.isFunc) = attempt)
    (hstops : ¬Stops config shouldRetry outcome (attempt + 1)) (lastExc : Option ε) :
    ∃ exc before', before'.countP (·.1.isFunc) = attempt + 1 ∧
      (attempts config shouldRetry (delays config) (left + 1) attempt lastExc).perform
        (answers outcome) before =
          let run := (attempts config shouldRetry (delays config) left (attempt + 1)
            (some exc)).perform (answers outcome) before'
          (⟨.func, outcome (attempt + 1)⟩ ::
            ⟨.sleep (config.backoff (attempt + 1)), .ok ()⟩ :: run.1, run.2) := by
  have hanswer : answers outcome before .func = outcome (attempt + 1) := by rw [answers, hcount]
  have hpos := config.maxAttempts_pos
  obtain ⟨exc, hi, hreject, hlast⟩ := not_stops hstops
  have hgoes : ¬((attempt : ℤ) = config.maxAttempts - 1 ∨ rejects shouldRetry exc = true) := by
    rw [hreject]
    simp only [Bool.false_eq_true, or_false]
    omega
  have hdelay : (delays config)[attempt]? = some (config.backoff (attempt + 1)) :=
    delays_getElem? config (by omega)
  refine ⟨exc, before ++ [⟨.func, outcome (attempt + 1)⟩] ++
    [⟨.sleep (config.backoff (attempt + 1)), .ok ()⟩], ?_, ?_⟩
  · rw [List.countP_append, List.countP_append, hcount]
    rfl
  · rw [attempts, CallTree.perform]
    simp only [hanswer, hi, if_neg hgoes, hdelay]
    rfl

theorem perform_attempts {config : RetryConfig} {shouldRetry : Option (ε → Bool)}
    {outcome : ℕ → Except ε α} {m : ℕ} (hstops : Stops config shouldRetry outcome m)
    (left attempt : ℕ) (lastExc : Option ε) (before : List (Sigma (RetryAnswer ε α)))
    (hleft : attempt + left = config.maxAttempts.toNat)
    (hcount : before.countP (·.1.isFunc) = attempt) (hlt : attempt < m)
    (hle : m ≤ config.maxAttempts.toNat)
    (hfirst : ∀ i, attempt < i → i < m → ¬Stops config shouldRetry outcome i) :
    (attempts config shouldRetry (delays config) left attempt lastExc).perform (answers outcome)
      before = (traceFrom config outcome (attempt + 1) m, .outcome (outcome m)) := by
  induction left generalizing attempt lastExc before with
  | zero => omega
  | succ left ih =>
    rcases Nat.eq_or_lt_of_le (Nat.succ_le_of_lt hlt) with rfl | hmore
    · rw [traceFrom_self]
      exact perform_attempts_stop hcount hstops lastExc
    · have hnext : attempt + 1 + left = config.maxAttempts.toNat := by omega
      obtain ⟨exc, before', hcount', hrun⟩ :=
        perform_attempts_next hnext hcount (hfirst _ (Nat.lt_succ_self _) hmore) lastExc
      rw [hrun, traceFrom_step config outcome hmore, ih (attempt + 1) (some exc) before' hnext hcount'
        hmore fun i hi => hfirst i (Nat.lt_of_succ_lt hi)]

theorem attempts_inLoop {config : RetryConfig} {shouldRetry : Option (ε → Bool)}
    (left attempt : ℕ) (lastExc : Option ε) (hleft : attempt + left = config.maxAttempts.toNat)
    (hpos : 0 < left) {trace : List (Sigma (RetryAnswer ε α))} {r : RetryEnd ε α}
    (h : (attempts config shouldRetry (delays config) left attempt lastExc).Runs trace r) :
    r.InLoop := by
  induction left generalizing attempt lastExc trace with
  | zero => omega
  | succ left ih =>
    rw [attempts, CallTree.runs_calls_iff] at h
    obtain ⟨answer, rest, -, h⟩ := h
    cases answer with
    | ok value =>
      obtain ⟨-, rfl⟩ := CallTree.runs_ends_iff.mp h
      trivial
    | error exc =>
      simp only at h
      split at h
      · obtain ⟨-, rfl⟩ := CallTree.runs_ends_iff.mp h
        trivial
      · rename_i hgoes
        obtain ⟨hlast, -⟩ := not_or.mp hgoes
        have hdelay : (delays config)[attempt]? = some (config.backoff (attempt + 1)) :=
          delays_getElem? config (by omega)
        rw [hdelay, CallTree.runs_calls_iff] at h
        obtain ⟨slept, rest, -, h⟩ := h
        cases slept with
        | ok _ => exact ih (attempt + 1) (some exc) (by omega) (by omega) h
        | error e =>
          obtain ⟨-, rfl⟩ := CallTree.runs_ends_iff.mp h
          trivial

theorem exists_isLeast_stops (config : RetryConfig) (shouldRetry : Option (ε → Bool))
    (outcome : ℕ → Except ε α) :
    ∃ m, IsLeast {i | 1 ≤ i ∧ Stops config shouldRetry outcome i} m ∧
      m ≤ config.maxAttempts.toNat := by
  classical
  have hpos := config.maxAttempts_pos
  have hlast : 1 ≤ config.maxAttempts.toNat ∧
      Stops config shouldRetry outcome config.maxAttempts.toNat :=
    ⟨by omega, .inr (.inr (by omega))⟩
  have hexists : ∃ i, 1 ≤ i ∧ Stops config shouldRetry outcome i := ⟨_, hlast⟩
  exact ⟨Nat.find hexists, ⟨Nat.find_spec hexists, fun i hi => Nat.find_min' hexists hi⟩,
    Nat.find_min' hexists hlast⟩

/-- `func` is called until the first attempt that stops, whose outcome is that of the call,
with a sleep of the backoff between two attempts, whether the calls are awaited or not. -/
theorem withRetry_law (config : Option RetryConfig) (shouldRetry : Option (ε → Bool))
    (outcome : ℕ → Except ε α) :
    ∃ m trace, IsLeast {i | 1 ≤ i ∧ Stops (config.getD .default) shouldRetry outcome i} m ∧
      trace = traceFrom (config.getD .default) outcome 1 m ∧ trace.countP (·.1.isFunc) = m ∧
      (withRetry config shouldRetry).perform (answers outcome) [] =
        (trace, .outcome (outcome m)) ∧
      (∀ i, 0 ≤ (config.getD .default).backoff i) ∧
      (∀ (trace : List (Sigma (RetryAnswer ε α))) r,
        (withRetry config shouldRetry).Runs trace r → r.InLoop) ∧
      (∀ start, CallTree.Completes start (answers outcome) → ∃ resumptions,
        (awithRetry config shouldRetry).drive start resumptions [] =
          some (trace, .outcome (outcome m))) ∧
      ∀ start resumptions run,
        (awithRetry config shouldRetry).drive start resumptions [] = some run →
        CallTree.Agrees (answers outcome) [] run.1 → run = (trace, .outcome (outcome m)) := by
  obtain ⟨m, hleast, hle⟩ := exists_isLeast_stops (config.getD .default) shouldRetry outcome
  have hperform : (withRetry config shouldRetry).perform (answers outcome) [] =
      (traceFrom (config.getD .default) outcome 1 m, .outcome (outcome m)) :=
    perform_attempts hleast.1.2 _ 0 none [] (Nat.zero_add _) rfl hleast.1.1 hle
      fun i hpos hlt hstops => absurd (hleast.2 ⟨hpos, hstops⟩) (Nat.not_le.mpr hlt)
  have hmax := (config.getD .default).maxAttempts_pos
  refine ⟨m, _, hleast, rfl, countP_traceFrom _ _ hleast.1.1, hperform,
    RetryConfig.backoff_nonneg _, fun trace r hruns => ?_, fun start hstart => ?_,
    fun start resumptions run hrun hagrees => ?_⟩
  · exact attempts_inLoop _ 0 none (Nat.zero_add _) (by omega) hruns
  · rw [awithRetry_eq, ← hperform]
    exact CallTree.drive_of_completes hstart _ []
  · rw [awithRetry_eq] at hrun
    rw [← hperform]
    exact ((CallTree.runs_of_drive hrun).perform_eq hagrees).symm

end

end AtomicMemory
