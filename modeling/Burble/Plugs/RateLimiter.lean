import Mathlib.Data.Rat.Floor
import Mathlib.Tactic.Linarith
import Mathlib.Tactic.Ring
import Burble.FiniteMap
import Burble.Runs

namespace Burble.Plugs

inductive TierName
  | roomCreation
  | login
  | refresh
  | guest
  deriving DecidableEq, Repr

/-- The burst capacity and the tokens per second of a tier: a bucket holds at least one token and refills. -/
structure Tier where
  maxTokens : ℚ
  refillRate : ℚ
  capacity : 1 ≤ maxTokens
  refills : 0 < refillRate

/-- So many requests a minute. -/
def perMinute (requests : Nat) (positive : 0 < requests) : Tier where
  maxTokens := requests
  refillRate := requests / 60
  capacity := Nat.one_le_cast.mpr positive
  refills := div_pos (Nat.cast_pos.mpr positive) (by decide)

def defaultTiers : TierName → Tier
  | .roomCreation => perMinute 5 (by decide)
  | .login => perMinute 10 (by decide)
  | .refresh => perMinute 30 (by decide)
  | .guest => perMinute 60 (by decide)

/-- A client's address and the tier of its request. -/
abbrev BucketKey := String × TierName

/-- The tokens left and the time of the last refill, in milliseconds. -/
structure Bucket where
  tokens : ℚ
  lastRefill : Int
  deriving DecidableEq

abbrev Buckets := FiniteMap BucketKey Bucket

inductive Verdict
  | ok
  | rateLimited (retryAfterSeconds : Int)
  deriving DecidableEq

def Tier.seconds (milliseconds : Int) : ℚ := milliseconds / 1000

/-- The tokens of a bucket at a time: refilled since the last check, up to the capacity; a new bucket is full. -/
def Tier.refilled (tier : Tier) (now : Int) : Option Bucket → ℚ
  | some bucket =>
    min (bucket.tokens + Tier.seconds (max (now - bucket.lastRefill) 0) * tier.refillRate) tier.maxTokens
  | none => tier.maxTokens

def checkRate (tiers : TierName → Tier) (ip : String) (tierName : TierName) (now : Int) (buckets : Buckets) :
    Verdict × Buckets :=
  let tier := tiers tierName
  let tokens := tier.refilled now (buckets.lookup (ip, tierName))
  if 1 ≤ tokens then (.ok, buckets.insert (ip, tierName) ⟨tokens - 1, now⟩)
  else (.rateLimited ⌈(1 - tokens) / tier.refillRate⌉, buckets.insert (ip, tierName) ⟨tokens, now⟩)

end Burble.Plugs

namespace Burble.Plugs

/-- One request as it was checked, with the verdict. -/
structure Request where
  key : BucketKey
  now : Int
  verdict : Verdict
  deriving DecidableEq

def Checks (tiers : TierName → Tier) (before : Buckets) (request : Request) (after : Buckets) : Prop :=
  checkRate tiers request.key.1 request.key.2 request.now before = (request.verdict, after)

/-- A request of a key that was accepted in a window of time. -/
def acceptedIn (key : BucketKey) (start stop : Int) (request : Request) : Bool :=
  request.key = key ∧ request.verdict = .ok ∧ start ≤ request.now ∧ request.now ≤ stop

theorem Tier.seconds_mono {one other : Int} (ordered : one ≤ other) : Tier.seconds one ≤ Tier.seconds other :=
  div_le_div_of_nonneg_right (Int.cast_le.mpr ordered) (by decide)

theorem Tier.seconds_sub (one other : Int) : Tier.seconds (one - other) = Tier.seconds one - Tier.seconds other := by
  simp only [Tier.seconds, Int.cast_sub]
  ring

section Step
variable {tiers : TierName → Tier} {before after : Buckets} {request : Request}

/-- A request spends a token that is there, or leaves the tokens and is told when to come back. -/
theorem checks_cases (taken : Checks tiers before request after) :
    ∃ tokens, tokens = (tiers request.key.2).refilled request.now (before.lookup request.key) ∧
      ((request.verdict = .ok ∧ 1 ≤ tokens ∧ after = before.insert request.key ⟨tokens - 1, request.now⟩) ∨
        (request.verdict = .rateLimited ⌈(1 - tokens) / (tiers request.key.2).refillRate⌉ ∧ tokens < 1 ∧
          after = before.insert request.key ⟨tokens, request.now⟩)) := by
  refine ⟨_, rfl, ?_⟩
  unfold Checks checkRate at taken
  simp only at taken
  split at taken
  next enough =>
    cases same : request.verdict
    all_goals
      rw [same] at taken
      cases taken
    exact .inl ⟨rfl, enough, rfl⟩
  next few =>
    obtain ⟨verdict, same⟩ := Prod.mk.inj taken
    exact .inr ⟨verdict.symm, not_le.mp few, same.symm⟩

/-- A request leaves the buckets of the other keys. -/
theorem checks_elsewhere (taken : Checks tiers before request after) {key : BucketKey} (other : request.key ≠ key) :
    after.lookup key = before.lookup key := by
  obtain ⟨tokens, _, ⟨_, _, rfl⟩ | ⟨_, _, rfl⟩⟩ := checks_cases taken
  all_goals exact AList.lookup_insert_ne (Ne.symm other)

end Step

/-- The bucket of a key after a history of requests: its tokens are those that the windows up to its
last refill have left. -/
structure Metered (tier : Tier) (key : BucketKey) (history : List Request) (bucket : Option Bucket) : Prop where
  new : bucket = none → ∀ request ∈ history, request.key ≠ key
  latest {found : Bucket} : bucket = some found → ∀ request ∈ history, request.key = key → request.now ≤ found.lastRefill
  bounds {found : Bucket} : bucket = some found → 0 ≤ found.tokens ∧ found.tokens ≤ tier.maxTokens
  spent {found : Bucket} : bucket = some found → ∀ start stop, start ≤ found.lastRefill → found.lastRefill ≤ stop →
    (history.countP (acceptedIn key start stop) : ℚ) + found.tokens ≤
      tier.maxTokens + tier.refillRate * Tier.seconds (found.lastRefill - start)
  window : ∀ start stop, start ≤ stop → (history.countP (acceptedIn key start stop) : ℚ) ≤
    tier.maxTokens + tier.refillRate * Tier.seconds (stop - start)

namespace Metered
variable {tier : Tier} {key : BucketKey} {history : List Request} {bucket : Option Bucket} {request : Request}

theorem room (tier : Tier) {start stop : Int} (ordered : start ≤ stop) :
    (0 : ℚ) ≤ tier.maxTokens + tier.refillRate * Tier.seconds (stop - start) := by
  have seconds : 0 ≤ Tier.seconds (stop - start) := div_nonneg (Int.cast_nonneg (Int.sub_nonneg_of_le ordered)) (by decide)
  have refill := mul_nonneg tier.refills.le seconds
  have capacity := tier.capacity
  linarith

theorem start (tier : Tier) (key : BucketKey) : Metered tier key [] none where
  new _ _ member := absurd member List.not_mem_nil
  latest found := by cases found
  bounds found := by cases found
  spent found := by cases found
  window start stop ordered := by simpa using room tier ordered

theorem elsewhere (metered : Metered tier key history bucket) (other : request.key ≠ key) :
    Metered tier key (history ++ [request]) bucket := by
  have same (start stop : Int) : (history ++ [request]).countP (acceptedIn key start stop) =
      history.countP (acceptedIn key start stop) := by
    simp [List.countP_append, acceptedIn, other]
  refine ⟨fun none asked member => ?_, fun found asked member isKey => ?_, metered.bounds, fun found start stop => ?_,
    fun start stop => ?_⟩
  · rcases List.mem_append.mp member with old | new
    · exact metered.new none asked old
    · exact List.mem_singleton.mp new ▸ other
  · rcases List.mem_append.mp member with old | new
    · exact metered.latest found asked old isKey
    · exact absurd (List.mem_singleton.mp new ▸ isKey) other
  · rw [same]
    exact metered.spent found start stop
  · rw [same]
    exact metered.window start stop

theorem refilled_le (tier : Tier) (now : Int) (bucket : Option Bucket) : tier.refilled now bucket ≤ tier.maxTokens := by
  cases bucket with
  | none => exact le_refl _
  | some found => exact min_le_right _ _

theorem refilled_nonneg (metered : Metered tier key history bucket) (now : Int) : 0 ≤ tier.refilled now bucket := by
  have capacity := tier.capacity
  cases bucket with
  | none => exact le_trans (by decide) capacity
  | some found =>
    refine le_min ?_ (by linarith)
    have seconds : 0 ≤ Tier.seconds (max (now - found.lastRefill) 0) :=
      div_nonneg (Int.cast_nonneg (le_max_right _ _)) (by decide)
    have refill := mul_nonneg seconds tier.refills.le
    have tokens := (metered.bounds rfl).1
    linarith

/-- What was accepted in a window before a request, together with the tokens that the request finds. -/
theorem found_le (metered : Metered tier key history bucket) {now start stop : Int}
    (after : start ≤ now) (before : now ≤ stop) (clock : ∀ found, bucket = some found → found.lastRefill ≤ now) :
    (history.countP (acceptedIn key start stop) : ℚ) + tier.refilled now bucket ≤
      tier.maxTokens + tier.refillRate * Tier.seconds (now - start) := by
  -- no request of the key in the window yet
  have fresh (none : ∀ request ∈ history, request.key = key → request.now < start) :
      (history.countP (acceptedIn key start stop) : ℚ) + tier.refilled now bucket ≤
        tier.maxTokens + tier.refillRate * Tier.seconds (now - start) := by
    have zero : history.countP (acceptedIn key start stop) = 0 := by
      refine List.countP_eq_zero.mpr fun request member accepted => ?_
      obtain ⟨isKey, _, late, _⟩ := of_decide_eq_true accepted
      exact absurd late (not_le.mpr (none request member isKey))
    have seconds : 0 ≤ Tier.seconds (now - start) := div_nonneg (Int.cast_nonneg (Int.sub_nonneg_of_le after)) (by decide)
    have refill := mul_nonneg tier.refills.le seconds
    have most := refilled_le tier now bucket
    rw [zero, Nat.cast_zero]
    linarith
  cases bucket with
  | none => exact fresh fun request member isKey => absurd isKey (metered.new rfl request member)
  | some found =>
    by_cases inside : start ≤ found.lastRefill
    · have earlier := clock found rfl
      have spent := metered.spent rfl start stop inside (earlier.trans before)
      have most : tier.refilled now (some found) ≤ found.tokens + Tier.seconds (now - found.lastRefill) * tier.refillRate := by
        have elapsed : max (now - found.lastRefill) 0 = now - found.lastRefill := max_eq_left (Int.sub_nonneg_of_le earlier)
        rw [Tier.refilled, elapsed]
        exact min_le_left _ _
      simp only [Tier.seconds_sub] at spent most ⊢
      nlinarith
    · exact fresh fun request member isKey => lt_of_le_of_lt (metered.latest rfl request member isKey) (not_le.mp inside)

/-- A request of the key at its time, with the bucket that it leaves. -/
theorem next (metered : Metered tier key history bucket) (isKey : request.key = key)
    (ordered : ∀ earlier ∈ history, earlier.key = key → earlier.now ≤ request.now)
    (clock : ∀ found, bucket = some found → found.lastRefill ≤ request.now) {left : ℚ}
    (spends : (request.verdict = .ok ∧ 1 ≤ tier.refilled request.now bucket ∧
        left = tier.refilled request.now bucket - 1) ∨
      (request.verdict ≠ .ok ∧ left = tier.refilled request.now bucket)) :
    Metered tier key (history ++ [request]) (some ⟨left, request.now⟩) := by
  have most := refilled_le tier request.now bucket
  have least := metered.refilled_nonneg request.now
  have nonneg : 0 ≤ left := by
    rcases spends with ⟨_, enough, rfl⟩ | ⟨_, rfl⟩
    · linarith
    · exact least
  have spent (start stop : Int) (after : start ≤ request.now) (before : request.now ≤ stop) :
      ((history ++ [request]).countP (acceptedIn key start stop) : ℚ) + left ≤
        tier.maxTokens + tier.refillRate * Tier.seconds (request.now - start) := by
    have found := metered.found_le after before clock
    rw [List.countP_append, List.countP_singleton]
    rcases spends with ⟨isOk, _, rfl⟩ | ⟨isRefused, rfl⟩
    · have accepted : acceptedIn key start stop request = true := decide_eq_true ⟨isKey, isOk, after, before⟩
      rw [if_pos accepted, Nat.cast_add, Nat.cast_one]
      linarith
    · have refused : acceptedIn key start stop request = false := decide_eq_false fun accepted => isRefused accepted.2.1
      rw [refused]
      exact found
  refine ⟨fun none => (by cases none), fun found earlier member same => ?_, fun found => ?_, fun found start stop => ?_,
    fun start stop window => ?_⟩
  · cases found
    rcases List.mem_append.mp member with old | new
    · exact ordered earlier old same
    · rw [List.mem_singleton.mp new]
  · cases found
    refine ⟨nonneg, ?_⟩
    rcases spends with ⟨_, _, rfl⟩ | ⟨_, rfl⟩
    · simp only
      linarith
    · exact most
  · cases found
    exact spent start stop
  · by_cases inside : start ≤ request.now ∧ request.now ≤ stop
    · have bound := spent start stop inside.1 inside.2
      have later : Tier.seconds (request.now - start) ≤ Tier.seconds (stop - start) :=
        Tier.seconds_mono (Int.sub_le_sub_right inside.2 start)
      have refill := mul_le_mul_of_nonneg_left later tier.refills.le
      linarith
    · have outside : acceptedIn key start stop request = false := decide_eq_false fun accepted => inside accepted.2.2
      rw [List.countP_append, List.countP_singleton, outside]
      exact metered.window start stop window

end Metered

/-- After a rejection a bucket has a token again when the delay is over. -/
def Recovers (tier : Tier) (rejectedAt retry : Int) (bucket : Option Bucket) : Prop :=
  ∃ found, bucket = some found ∧
    1 ≤ found.tokens + tier.refillRate * (retry - Tier.seconds (found.lastRefill - rejectedAt))

namespace Recovers
variable {tier : Tier} {rejectedAt retry : Int} {bucket : Option Bucket}

theorem rejected (tier : Tier) {tokens : ℚ} (rejectedAt : Int) :
    Recovers tier rejectedAt ⌈(1 - tokens) / tier.refillRate⌉ (some ⟨tokens, rejectedAt⟩) := by
  refine ⟨_, rfl, ?_⟩
  have delay : (1 - tokens) / tier.refillRate ≤ (⌈(1 - tokens) / tier.refillRate⌉ : ℚ) := Int.le_ceil _
  have refill := (div_le_iff₀ tier.refills).mp delay
  have none : Tier.seconds (rejectedAt - rejectedAt) = 0 := by rw [Tier.seconds_sub, sub_self]
  rw [none, sub_zero]
  linarith

theorem refilled (recovers : Recovers tier rejectedAt retry bucket) (now : Int) :
    tier.maxTokens ≤ tier.refilled now bucket ∨
      1 ≤ tier.refilled now bucket + tier.refillRate * (retry - Tier.seconds (now - rejectedAt)) := by
  obtain ⟨found, rfl, due⟩ := recovers
  rw [Tier.refilled]
  rcases min_choice (found.tokens + Tier.seconds (max (now - found.lastRefill) 0) * tier.refillRate) tier.maxTokens with
    left | right
  · right
    rw [left]
    have elapsed : Tier.seconds (now - found.lastRefill) ≤ Tier.seconds (max (now - found.lastRefill) 0) :=
      Tier.seconds_mono (le_max_left _ _)
    have refill := mul_le_mul_of_nonneg_right elapsed tier.refills.le
    simp only [Tier.seconds_sub] at due refill ⊢
    linarith
  · exact .inl right.ge

end Recovers

section Running
variable {tiers : TierName → Tier} {before after buckets : Buckets} {request : Request} {history : List Request}

theorem Metered.checks {key : BucketKey} (metered : Metered (tiers key.2) key history (before.lookup key))
    (taken : Checks tiers before request after)
    (ordered : ∀ earlier ∈ history, earlier.key = key → request.key = key → earlier.now ≤ request.now)
    (clock : ∀ found, before.lookup key = some found → ∃ earlier ∈ history, earlier.key = key ∧ earlier.now = found.lastRefill) :
    Metered (tiers key.2) key (history ++ [request]) (after.lookup key) := by
  by_cases isKey : request.key = key
  · subst isKey
    have earlier (found : Bucket) (there : before.lookup request.key = some found) : found.lastRefill ≤ request.now := by
      obtain ⟨last, member, same, isLast⟩ := clock found there
      exact isLast ▸ ordered last member same rfl
    obtain ⟨tokens, isTokens, spends⟩ := checks_cases taken
    rcases spends with ⟨isOk, enough, rfl⟩ | ⟨refused, _, rfl⟩
    · rw [AList.lookup_insert]
      exact metered.next rfl (fun last member same => ordered last member same rfl) earlier
        (.inl ⟨isOk, isTokens ▸ enough, by rw [isTokens]⟩)
    · rw [AList.lookup_insert]
      refine metered.next rfl (fun last member same => ordered last member same rfl) earlier (.inr ⟨?_, isTokens⟩)
      rw [refused]
      exact fun same => by cases same
  · rw [checks_elsewhere taken isKey]
    exact metered.elsewhere isKey

theorem run_metered (run : Run (Checks tiers) ∅ history buckets) (key : BucketKey)
    (ordered : history.Pairwise fun one other => one.key = key → other.key = key → one.now ≤ other.now) :
    Metered (tiers key.2) key history (buckets.lookup key) ∧
      ∀ found, buckets.lookup key = some found → ∃ last ∈ history, last.key = key ∧ last.now = found.lastRefill := by
  induction run with
  | start => exact ⟨.start _ _, fun found there => by cases there⟩
  | @next earlier current request after _ taken ih =>
    obtain ⟨past, _, between⟩ := List.pairwise_append.mp ordered
    obtain ⟨metered, clock⟩ := ih past
    refine ⟨metered.checks taken (fun last member same isKey => between last member request List.mem_cons_self same isKey)
      clock, fun found there => ?_⟩
    by_cases isKey : request.key = key
    · refine ⟨request, by simp, isKey, ?_⟩
      obtain ⟨tokens, _, ⟨_, _, rfl⟩ | ⟨_, _, rfl⟩⟩ := checks_cases taken
      all_goals
        rw [isKey, AList.lookup_insert] at there
        cases there
        rfl
    · rw [checks_elsewhere taken isKey] at there
      obtain ⟨last, member, same, isLast⟩ := clock found there
      exact ⟨last, List.mem_append_left _ member, same, isLast⟩

/-- Requests that are not accepted only refill the bucket. -/
theorem Recovers.checks {key : BucketKey} {rejectedAt retry : Int}
    (recovers : Recovers (tiers key.2) rejectedAt retry (before.lookup key)) (taken : Checks tiers before request after)
    (refused : request.key = key → request.verdict ≠ .ok) :
    Recovers (tiers key.2) rejectedAt retry (after.lookup key) := by
  by_cases isKey : request.key = key
  · subst isKey
    obtain ⟨tokens, isTokens, ⟨isOk, _⟩ | ⟨_, few, rfl⟩⟩ := checks_cases taken
    · exact absurd isOk (refused rfl)
    · rw [AList.lookup_insert]
      rcases recovers.refilled request.now with full | due
      · have capacity := (tiers request.key.2).capacity
        rw [← isTokens] at full
        linarith
      · exact ⟨_, rfl, isTokens ▸ due⟩
  · rw [checks_elsewhere taken isKey]
    exact recovers

theorem Recovers.run {key : BucketKey} {rejectedAt retry : Int}
    (recovers : Recovers (tiers key.2) rejectedAt retry (before.lookup key)) (run : Run (Checks tiers) before history after)
    (refused : ∀ request ∈ history, request.key = key → request.verdict ≠ .ok) :
    Recovers (tiers key.2) rejectedAt retry (after.lookup key) := by
  induction run with
  | start => exact recovers
  | next _ taken ih =>
    exact (ih fun request member => refused request (List.mem_append_left _ member)).checks taken
      (refused _ (List.mem_append_right _ List.mem_cons_self))

/-- A request after the delay of a rejection is accepted. -/
theorem Recovers.accepted {key : BucketKey} {rejectedAt retry : Int}
    (recovers : Recovers (tiers key.2) rejectedAt retry (before.lookup key)) (taken : Checks tiers before request after)
    (isKey : request.key = key) (late : retry * 1000 ≤ request.now - rejectedAt) : request.verdict = .ok := by
  subst isKey
  obtain ⟨tokens, isTokens, ⟨isOk, _⟩ | ⟨_, few, _⟩⟩ := checks_cases taken
  · exact isOk
  · exfalso
    rcases recovers.refilled request.now with full | due
    · have capacity := (tiers request.key.2).capacity
      rw [← isTokens] at full
      linarith
    · rw [← isTokens] at due
      have delay : (retry : ℚ) ≤ Tier.seconds (request.now - rejectedAt) := by
        rw [Tier.seconds, le_div_iff₀ (by decide)]
        exact_mod_cast late
      have elapsed : (tiers request.key.2).refillRate * (retry - Tier.seconds (request.now - rejectedAt)) ≤ 0 :=
        mul_nonpos_of_nonneg_of_nonpos (tiers request.key.2).refills.le (sub_nonpos.mpr delay)
      linarith

/-- In every run of checks, for every key whose requests come in order of time: the tokens lie between
none and the capacity; in a window of time no more requests are accepted than the capacity and what is
refilled in the window; and after a rejection a request that waited for the delay is accepted, when none
was accepted in between. -/
theorem rate_bounded (run : Run (Checks tiers) ∅ history buckets) (key : BucketKey)
    (ordered : history.Pairwise fun one other => one.key = key → other.key = key → one.now ≤ other.now) :
    (∀ found, buckets.lookup key = some found → 0 ≤ found.tokens ∧ found.tokens ≤ (tiers key.2).maxTokens) ∧
    (∀ start stop, start ≤ stop → (history.countP (acceptedIn key start stop) : ℚ) ≤
      (tiers key.2).maxTokens + (tiers key.2).refillRate * Tier.seconds (stop - start)) ∧
    ∀ past rejected between request later retry, history = past ++ rejected :: between ++ request :: later →
      rejected.key = key → rejected.verdict = .rateLimited retry → request.key = key →
      (∀ other ∈ between, other.key = key → other.verdict ≠ .ok) → retry * 1000 ≤ request.now - rejected.now →
      request.verdict = .ok := by
  obtain ⟨metered, _⟩ := run_metered run key ordered
  refine ⟨fun found there => metered.bounds there, metered.window, ?_⟩
  intro past rejected between request later retry split isKey limited same refused late
  rw [split] at run
  obtain ⟨there, front, back⟩ := run.split
  obtain ⟨start, _, rest⟩ := front.split
  obtain ⟨limitedAt, first, waits⟩ := Run.cons_iff.mp rest
  obtain ⟨last, taken, _⟩ := Run.cons_iff.mp back
  have recovers : Recovers (tiers key.2) rejected.now retry (limitedAt.lookup key) := by
    subst isKey
    obtain ⟨tokens, _, ⟨isOk, _⟩ | ⟨isLimited, _, rfl⟩⟩ := checks_cases first
    · cases limited.symm.trans isOk
    · cases limited.symm.trans isLimited
      rw [AList.lookup_insert]
      exact .rejected _ _
  exact (recovers.run waits refused).accepted taken same late

/-- Check requests one after the other. -/
def checkAll (tiers : TierName → Tier) : List (BucketKey × Int) → Buckets → List Request × Buckets
  | [], buckets => ([], buckets)
  | (key, now) :: rest, buckets =>
    let (verdict, next) := checkRate tiers key.1 key.2 now buckets
    let (history, last) := checkAll tiers rest next
    (⟨key, now, verdict⟩ :: history, last)

theorem checkAll_run (requests : List (BucketKey × Int)) (buckets : Buckets) :
    Run (Checks tiers) buckets (checkAll tiers requests buckets).1 (checkAll tiers requests buckets).2 := by
  induction requests generalizing buckets with
  | nil => exact .start
  | cons request rest ih => exact Run.cons_iff.mpr ⟨_, rfl, ih _⟩

end Running

/-- Six rooms are created at once, and one more after the delay. -/
def creatingRooms : List Request :=
  (checkAll defaultTiers ((List.replicate 6 0 ++ [12000]).map fun now => (("10.0.0.1", .roomCreation), now)) ∅).1

theorem rate_bounded_creatingRooms :
    creatingRooms.map Request.verdict = List.replicate 5 .ok ++ [.rateLimited 12, .ok] ∧
      ∀ start stop, start ≤ stop → (creatingRooms.countP (acceptedIn ("10.0.0.1", .roomCreation) start stop) : ℚ) ≤
        5 + 5 / 60 * Tier.seconds (stop - start) :=
  ⟨by decide +kernel, (rate_bounded (checkAll_run _ ∅) ("10.0.0.1", .roomCreation) (by decide +kernel)).2.1⟩

end Burble.Plugs
