import Universal7420.Power.Utils

/-
  The polling loop of `Utils::poll`.

  The loop carries three variables from turn to turn.  The
  flag for the first poll is never cleared, so every
  successful read goes to the callback, and the result of the
  callback is used before there is one when the first read
  fails and is ignored.  A read gives a number or fails; a
  text that is no number throws and is no part of a stream.

  Main declarations:
    * `Universal7420.Utils.pollBody`
    * `Universal7420.Utils.pollTurn`
    * `Universal7420.Utils.ReportsChanges`
    * `Universal7420.Utils.pollBefore_invariant`
    * `Universal7420.Utils.goesOn_of_pollBefore`
    * `Universal7420.Utils.reportsChanges_iff`
    * `Universal7420.Utils.startFilePolling_ends_iff`
-/

------------------------------------------------------------
-- The Loop
------------------------------------------------------------

namespace Universal7420

namespace Utils

/- The build and the last argument of `poll`. -/
structure PollMode where
  strictBehaviour : Bool
  ignoreFailures : Bool
deriving DecidableEq, Repr

/- The variables of the loop; absent before an assignment. -/
structure PollVars where
  isFirstPoll : Bool
  ret : Option Bool
  lastValue : Option Int
deriving DecidableEq, Repr

/- The variables before the loop. -/
def PollVars.init : PollVars where
  isFirstPoll := true
  ret := none
  lastValue := none

/-
  The body of the loop up to the decision, with the value that
  the callback is invoked with.
-/
def pollBody
    (mode : PollMode)
    (callback : Int → Bool)
    (vars : PollVars)
    (read : Option Int) : PollVars × Option Int :=
  match read with
  | some value =>
      if vars.isFirstPoll ∨ some value ≠ vars.lastValue then
        ({ ret := some (callback value)
           isFirstPoll := true
           lastValue := some value }, some value)
      else
        (vars, none)
  | none =>
      if mode.ignoreFailures then
        (vars, none)
      else if mode.strictBehaviour then
        ({ vars with ret := some false }, none)
      else
        (vars, none)

section Stream

variable (mode : PollMode)
variable (callback : Nat → Int → Bool)
variable (reads : Nat → Option Int)

/-
  The variables before a turn, absent when the loop does not
  get there: it ends, or its decision has no value.
-/
def pollBefore : Nat → Option PollVars
| 0 => some .init
| n + 1 =>
    match pollBefore n with
    | none => none
    | some vars =>
        let vars :=
          (pollBody mode (callback n) vars (reads n)).1
        if vars.ret = some true then some vars else none

/- What a turn reports, and what it decides on. -/
structure PollTurn where
  invoked : Option Int
  ret : Option Bool
deriving DecidableEq, Repr

def pollTurn (n : Nat) : Option PollTurn :=
  (pollBefore mode callback reads n).map (fun vars =>
    let body := pollBody mode (callback n) vars (reads n)
    ⟨body.2, body.1.ret⟩)

/- The answer of the callback last invoked before a turn. -/
def answered : Nat → Option Bool
| 0 => none
| n + 1 =>
    match pollTurn mode callback reads n with
    | some ⟨some value, _⟩ => some (callback n value)
    | _ => answered n

end Stream

/- The value of the last successful read before a turn. -/
def lastSuccess
    (reads : Nat → Option Int) : Nat → Option Int
| 0 => none
| n + 1 => (reads n).or (lastSuccess reads n)

/- A failing read ends the loop. -/
def PollMode.endsOnFailure (mode : PollMode) : Bool :=
  mode.strictBehaviour && !mode.ignoreFailures

/-
  The callback gets the changes and nothing else, the loop
  ends on its answer or on a failing read, and the decision
  has a value.
-/
structure ReportsChanges
    (mode : PollMode)
    (callback : Nat → Int → Bool)
    (reads : Nat → Option Int) : Prop where
  invoked :
    ∀ n turn, pollTurn mode callback reads n = some turn →
      ∀ value, turn.invoked = some value ↔
        reads n = some value ∧
          lastSuccess reads n ≠ some value
  ends :
    ∀ n turn, pollTurn mode callback reads n = some turn →
      (turn.ret = some false ↔
        answered mode callback reads (n + 1) = some false ∨
          (reads n = none ∧ mode.endsOnFailure = true))
  assigned :
    ∀ n turn, pollTurn mode callback reads n = some turn →
      turn.ret ≠ none

end Utils

end Universal7420

------------------------------------------------------------
-- Turns
------------------------------------------------------------

namespace Universal7420

namespace Utils

variable {mode : PollMode}

/- The result after a turn, from the one before it. -/
def decided
    (mode : PollMode)
    (callback : Int → Bool)
    (read : Option Int)
    (ret : Option Bool) : Option Bool :=
  match read with
  | some value => some (callback value)
  | none => if mode.endsOnFailure then some false else ret

/- The body while the flag is set: every value is reported. -/
theorem pollBody_eq
    {vars : PollVars}
    (callback : Int → Bool)
    (read : Option Int)
    (hFirst : vars.isFirstPoll = true) :
    pollBody mode callback vars read =
      ({ ret := decided mode callback read vars.ret
         isFirstPoll := true
         lastValue := read.or vars.lastValue }, read) := by
  cases read with
  | some value =>
      rw [pollBody, if_pos (Or.inl hFirst)]
      rfl
  | none =>
      rcases vars with ⟨isFirstPoll, ret, lastValue⟩
      rcases mode with ⟨strict, ignored⟩
      cases hFirst
      cases strict with
      | true =>
          cases ignored with
          | true => rfl
          | false => rfl
      | false =>
          cases ignored with
          | true => rfl
          | false => rfl

variable {callback : Nat → Int → Bool}
variable {reads : Nat → Option Int}

/- The loop comes to a turn through the one before. -/
theorem pollBefore_succ_eq_some_iff
    {n : Nat}
    {vars : PollVars} :
    pollBefore mode callback reads (n + 1) = some vars ↔
      ∃ before,
        pollBefore mode callback reads n = some before ∧
          (pollBody mode (callback n) before (reads n)).1 =
            vars ∧
          vars.ret = some true := by
  rw [pollBefore]
  rcases pollBefore mode callback reads n with _ | before
  · simp
  · simp only [Option.ite_none_right_eq_some,
      Option.some.injEq, exists_eq_left']
    constructor
    · rintro ⟨hRet, rfl⟩
      exact ⟨rfl, hRet⟩
    · rintro ⟨rfl, hRet⟩
      exact ⟨hRet, rfl⟩

/-
  What holds of the variables before every turn: the flag is
  still set, and the result is the last answer, which is not
  missing after the first turn.
-/
structure PollInvariant
    (mode : PollMode)
    (callback : Nat → Int → Bool)
    (reads : Nat → Option Int)
    (n : Nat)
    (vars : PollVars) : Prop where
  first : vars.isFirstPoll = true
  answer : vars.ret = answered mode callback reads n
  goesOn : n ≠ 0 → vars.ret = some true

/- The turn that follows, and the last answer after it. -/
theorem PollInvariant.turn
    {n : Nat}
    {vars : PollVars}
    (hInvariant :
      PollInvariant mode callback reads n vars)
    (hBefore :
      pollBefore mode callback reads n = some vars) :
    pollTurn mode callback reads n =
        some ⟨reads n,
          decided mode (callback n) (reads n) vars.ret⟩ ∧
      answered mode callback reads (n + 1) =
        ((reads n).map (callback n)).or vars.ret := by
  have hTurn :
      pollTurn mode callback reads n =
        some ⟨reads n,
          decided mode (callback n) (reads n) vars.ret⟩ := by
    rw [pollTurn, hBefore, Option.map_some,
      pollBody_eq _ _ hInvariant.first]
  refine ⟨hTurn, ?_⟩
  rw [answered, hTurn]
  cases hRead : reads n with
  | some value =>
      rfl
  | none =>
      simp [hInvariant.answer]

theorem pollBefore_invariant
    {n : Nat}
    {vars : PollVars}
    (hBefore :
      pollBefore mode callback reads n = some vars) :
    PollInvariant mode callback reads n vars := by
  induction n generalizing vars with
  | zero =>
      cases hBefore
      exact ⟨rfl, rfl, fun hZero => absurd rfl hZero⟩
  | succ n ih =>
      rcases pollBefore_succ_eq_some_iff.mp hBefore with
        ⟨before, hLast, hBody, hRet⟩
      have hInvariant := ih hLast
      rw [pollBody_eq _ _ hInvariant.first] at hBody
      subst hBody
      refine ⟨rfl, ?_, fun _ => hRet⟩
      rw [(hInvariant.turn hLast).2]
      -- a failing read that ends the loop leads to no turn
      cases hRead : reads n with
      | some value =>
          rfl
      | none =>
          rw [hRead] at hRet
          simp only [decided] at hRet ⊢
          split at hRet
          · cases hRet
          · rename_i hGoes
            simp [hGoes]

end Utils

end Universal7420

------------------------------------------------------------
-- Changes
------------------------------------------------------------

namespace Universal7420

namespace Utils

/- A turn with this read does not end the loop. -/
def GoesOn
    (mode : PollMode)
    (callback : Nat → Int → Bool)
    (reads : Nat → Option Int)
    (i : Nat) : Prop :=
  match reads i with
  | some value => callback i value = true
  | none => mode.endsOnFailure = false

variable {mode : PollMode}
variable {callback : Nat → Int → Bool}
variable {reads : Nat → Option Int}

/- A turn is reached through turns that all go on. -/
theorem goesOn_of_pollBefore
    {n : Nat}
    {vars : PollVars}
    (hBefore :
      pollBefore mode callback reads n = some vars) :
    ∀ i < n, GoesOn mode callback reads i := by
  induction n generalizing vars with
  | zero =>
      intro i hi
      omega
  | succ n ih =>
      rcases pollBefore_succ_eq_some_iff.mp hBefore with
        ⟨before, hLast, hBody, hRet⟩
      have hFirst := (pollBefore_invariant hLast).first
      rw [pollBody_eq _ _ hFirst] at hBody
      subst hBody
      intro i hi
      by_cases hEarlier : i < n
      · exact ih hLast i hEarlier
      · have hSame : i = n := by
          omega
        subst hSame
        simp only [decided] at hRet
        unfold GoesOn
        cases hRead : reads i with
        | some value =>
            rw [hRead] at hRet
            exact Option.some.inj hRet
        | none =>
            rw [hRead] at hRet
            simp only at hRet ⊢
            split at hRet
            · cases hRet
            · rename_i hGoes
              exact Bool.eq_false_iff.mpr hGoes

/- If the first decision has a value, all of them are reached. -/
theorem pollBefore_of_goesOn
    {n : Nat}
    (hFirst :
      reads 0 = none → mode.endsOnFailure = true)
    (hGoes : ∀ i < n, GoesOn mode callback reads i) :
    ∃ vars,
      pollBefore mode callback reads n = some vars := by
  induction n with
  | zero =>
      exact ⟨PollVars.init, rfl⟩
  | succ n ih =>
      rcases ih (fun i hi => hGoes i (by omega)) with
        ⟨before, hLast⟩
      have hInvariant := pollBefore_invariant hLast
      have hTurn := hGoes n (Nat.lt_succ_self n)
      have hRet :
          decided mode (callback n) (reads n) before.ret =
            some true := by
        unfold GoesOn at hTurn
        cases hRead : reads n with
        | some value =>
            rw [hRead] at hTurn
            exact congrArg some hTurn
        | none =>
            rw [hRead] at hTurn
            simp only at hTurn
            have hLater : n ≠ 0 := by
              intro hZero
              rw [hZero] at hRead
              rw [hFirst hRead] at hTurn
              cases hTurn
            simp [decided, hTurn, hInvariant.goesOn hLater]
      exact ⟨_, pollBefore_succ_eq_some_iff.mpr
        ⟨before, hLast, rfl, by
          rw [pollBody_eq _ _ hInvariant.first]
          exact hRet⟩⟩

/- A turn that happens, with the variables before it. -/
theorem exists_of_pollTurn
    {n : Nat}
    {turn : PollTurn}
    (hTurn : pollTurn mode callback reads n = some turn) :
    ∃ vars,
      pollBefore mode callback reads n = some vars ∧
        PollInvariant mode callback reads n vars ∧
        turn =
          ⟨reads n,
            decided mode (callback n) (reads n) vars.ret⟩ := by
  rcases Option.map_eq_some_iff.mp hTurn with
    ⟨vars, hBefore, _⟩
  have hInvariant := pollBefore_invariant hBefore
  rw [(hInvariant.turn hBefore).1] at hTurn
  exact ⟨vars, hBefore, hInvariant,
    (Option.some.inj hTurn).symm⟩

/- The loop always ends on an answer or on a failing read. -/
theorem ends_iff
    {n : Nat}
    {turn : PollTurn}
    (hTurn : pollTurn mode callback reads n = some turn) :
    turn.ret = some false ↔
      answered mode callback reads (n + 1) = some false ∨
        (reads n = none ∧ mode.endsOnFailure = true) := by
  rcases exists_of_pollTurn hTurn with
    ⟨vars, hBefore, hInvariant, rfl⟩
  rw [(hInvariant.turn hBefore).2]
  cases hRead : reads n with
  | some value =>
      simp [decided]
  | none =>
      cases hFail : mode.endsOnFailure with
      | true => simp [decided, hFail]
      | false => simp [decided, hFail]

/- A decision after the first one has a value. -/
theorem ret_ne_none
    {n : Nat}
    {turn : PollTurn}
    (hFirst :
      reads 0 = none → mode.endsOnFailure = true)
    (hTurn : pollTurn mode callback reads n = some turn) :
    turn.ret ≠ none := by
  rcases exists_of_pollTurn hTurn with
    ⟨vars, hBefore, hInvariant, rfl⟩
  cases hRead : reads n with
  | some value =>
      simp [decided]
  | none =>
      by_cases hZero : n = 0
      · rw [hZero] at hRead
        simp [decided, hFirst hRead]
      · simp only [decided, hInvariant.goesOn hZero]
        split <;> simp

/-
  `poll` reports changes only and decides on a value if and
  only if its first decision has one, and no read that the
  loop comes to repeats the last successful one.
-/
theorem reportsChanges_iff
    (mode : PollMode)
    (callback : Nat → Int → Bool)
    (reads : Nat → Option Int) :
    ReportsChanges mode callback reads ↔
      (reads 0 = none → mode.endsOnFailure = true) ∧
        ∀ n value,
          (∀ i < n, GoesOn mode callback reads i) →
          reads n = some value →
          lastSuccess reads n ≠ some value := by
  constructor
  · intro hReports
    have hFirst :
        reads 0 = none → mode.endsOnFailure = true := by
      intro hRead
      by_contra hIgnored
      refine hReports.assigned 0 ⟨none, none⟩ ?_ rfl
      have hInit :
          pollBefore mode callback reads 0 = some .init :=
        rfl
      rw [((pollBefore_invariant hInit).turn hInit).1, hRead]
      simp [decided, hIgnored, PollVars.init]
    refine ⟨hFirst, ?_⟩
    intro n value hGoes hRead
    rcases pollBefore_of_goesOn hFirst hGoes with
      ⟨vars, hBefore⟩
    have hTurn :=
      ((pollBefore_invariant hBefore).turn hBefore).1
    exact ((hReports.invoked n _ hTurn value).mp hRead).2
  · rintro ⟨hFirst, hChanges⟩
    refine ⟨?_, ?_, ?_⟩
    · intro n turn hTurn value
      rcases exists_of_pollTurn hTurn with
        ⟨vars, hBefore, _, rfl⟩
      have hGoes := goesOn_of_pollBefore hBefore
      constructor
      · intro hRead
        exact ⟨hRead, hChanges n value hGoes hRead⟩
      · intro hRead
        exact hRead.1
    · intro n turn hTurn
      exact ends_iff hTurn
    · intro n turn hTurn
      exact ret_ne_none hFirst hTurn

/- A value that does not change is reported at every turn. -/
theorem poll_repeats_value :
    ¬ ReportsChanges ⟨true, true⟩ (fun _ _ => true)
        (fun _ => some 1) := by
  intro hReports
  have hTurn :
      pollTurn ⟨true, true⟩ (fun _ _ => true)
          (fun _ => some 1) 1 =
        some ⟨some 1, some true⟩ :=
    rfl
  exact ((hReports.invoked 1 _ hTurn 1).mp rfl).2 rfl

/- Values that change at every turn are reported as they are. -/
theorem reportsChanges_counting :
    ReportsChanges ⟨true, true⟩ (fun _ _ => true)
        (fun n => some n) := by
  refine (reportsChanges_iff _ _ _).mpr ⟨by simp, ?_⟩
  intro n value _ hRead hLast
  cases hRead
  cases n with
  | zero =>
      cases hLast
  | succ n =>
      have hSame : (n : Int) = (n + 1 : Nat) :=
        Option.some.inj hLast
      omega

end Utils

end Universal7420

------------------------------------------------------------
-- Polling Of The Profile File
------------------------------------------------------------

namespace Universal7420

namespace Utils

variable {reads : Nat → Option Int}

/-
  `Profiles::startFilePolling`: the loop with the default
  arguments of `poll`.  `kPollingActive` is what the callback
  finds at each turn.
-/
def startFilePolling
    (strictBehaviour : Bool)
    (kPollingActive : Nat → Bool)
    (reads : Nat → Option Int) : Nat → Option PollTurn :=
  pollTurn ⟨strictBehaviour, true⟩
    (fun n _ => kPollingActive n) reads

/-
  A request to stop is seen at the next successful read and at
  no other turn, if the first read succeeds.
-/
theorem startFilePolling_ends_iff
    {strictBehaviour : Bool}
    {kPollingActive : Nat → Bool}
    {n : Nat}
    (hFirst : reads 0 ≠ none) :
    (∃ turn,
      startFilePolling strictBehaviour kPollingActive reads
          n = some turn ∧
        turn.ret = some false) ↔
      (reads n ≠ none ∧ kPollingActive n = false) ∧
        ∀ i < n, reads i ≠ none →
          kPollingActive i = true := by
  have hIgnored :
      (⟨strictBehaviour, true⟩ : PollMode).endsOnFailure =
        false := by
    simp [PollMode.endsOnFailure]
  have hGoesOn :
      ∀ i, GoesOn ⟨strictBehaviour, true⟩
          (fun n _ => kPollingActive n) reads i ↔
        (reads i ≠ none → kPollingActive i = true) := by
    intro i
    unfold GoesOn
    cases reads i with
    | some value => simp
    | none => simp [hIgnored]
  constructor
  · rintro ⟨turn, hTurn, hEnds⟩
    rcases exists_of_pollTurn hTurn with
      ⟨vars, hBefore, hInvariant, rfl⟩
    refine ⟨?_, fun i hi => (hGoesOn i).mp
      (goesOn_of_pollBefore hBefore i hi)⟩
    cases hRead : reads n with
    | some value =>
        rw [hRead] at hEnds
        exact ⟨by simp, Option.some.inj hEnds⟩
    | none =>
        -- the result is still the answer of an earlier turn
        have hLater : n ≠ 0 := by
          intro hZero
          exact hFirst (hZero ▸ hRead)
        simp [decided, hRead, hIgnored,
          hInvariant.goesOn hLater] at hEnds
  · rintro ⟨⟨hRead, hStopped⟩, hActive⟩
    have hGoes :
        ∀ i < n, GoesOn ⟨strictBehaviour, true⟩
          (fun n _ => kPollingActive n) reads i :=
      fun i hi => (hGoesOn i).mpr (hActive i hi)
    rcases pollBefore_of_goesOn
        (fun hNone => absurd hNone hFirst) hGoes with
      ⟨vars, hBefore⟩
    refine ⟨_, ((pollBefore_invariant hBefore).turn
      hBefore).1, ?_⟩
    rcases Option.ne_none_iff_exists'.mp hRead with
      ⟨value, hValue⟩
    simp [decided, hValue, hStopped]

end Utils

end Universal7420
