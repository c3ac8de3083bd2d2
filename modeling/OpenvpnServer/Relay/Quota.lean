import Mathlib.Data.Set.Function
import OpenvpnServer.Lib.Dict
import OpenvpnServer.Lib.Run
import OpenvpnServer.Lib.Text

-- The flows a client may hold at once: `flowQuota.acquire` and the functions it returns.
namespace OpenvpnServer.Relay.Quota

open OpenvpnServer.Lib

variable {Digest : Type} [DecidableEq Digest]

-- `used` is nil until the first flow is granted.
structure FlowQuota (Digest : Type) where
  maximum : Int
  used : Option (Dict Digest Int)
  deriving DecidableEq

namespace FlowQuota

-- `q.used[key]`, zero where there is no entry or no map.
def count (q : FlowQuota Digest) (key : Digest) : Int := (q.used.bind (·.get? key)).getD 0

-- The section of `acquire` under the mutex; `none` is a refusal.
def acquire (q : FlowQuota Digest) (key : Digest) : Option (FlowQuota Digest) :=
  if q.maximum ≤ q.count key then none
  else some { q with used := some ((q.used.getD .empty).set key (q.count key + 1)) }

-- The section of a release under the mutex; `none` is the panic of a write to a nil map.
def release (q : FlowQuota Digest) (key : Digest) : Option (FlowQuota Digest) :=
  q.used.map fun used =>
    let left := used.set key ((used.get? key).getD 0 - 1)
    { q with used := some (if (left.get? key).getD 0 = 0 then left.erase key else left) }

def NoZero (q : FlowQuota Digest) : Prop := ∀ used ∈ q.used, ∀ key, used.get? key ≠ some 0

variable {q q' : FlowQuota Digest} {key : Digest}

theorem acquire_eq_none_iff : q.acquire key = none ↔ q.maximum ≤ q.count key := by
  unfold acquire
  by_cases h : q.maximum ≤ q.count key
  · simp [h]
  · simp [h]

theorem acquire_eq_some_iff : q.acquire key = some q' ↔ q.count key < q.maximum ∧
    q' = { q with used := some ((q.used.getD .empty).set key (q.count key + 1)) } := by
  unfold acquire
  by_cases h : q.maximum ≤ q.count key
  · simp [h]
  · rw [if_neg h, Option.some.injEq, and_iff_right (by omega), eq_comm]

theorem count_acquired (h : q.acquire key = some q') (other : Digest) :
    q'.count other = if other = key then q.count key + 1 else q.count other := by
  obtain ⟨-, rfl⟩ := acquire_eq_some_iff.mp h
  simp only [count, Option.bind_some, Dict.get?_set]
  by_cases hother : other = key
  · rw [if_pos hother, if_pos hother, Option.getD_some]
  · rw [if_neg hother, if_neg hother]
    cases q.used with
    | none => rfl
    | some used => rfl

theorem NoZero.acquire (hzero : q.NoZero) (hcount : 0 ≤ q.count key)
    (h : q.acquire key = some q') : q'.NoZero := by
  obtain ⟨-, rfl⟩ := acquire_eq_some_iff.mp h
  intro used hused other hother
  cases hused
  rcases Dict.get?_set_cases hother with ⟨-, hvalue⟩ | ⟨-, hold⟩
  · omega
  · cases hq : q.used with
    | none =>
        rw [hq, Option.getD_none, Dict.get?_empty] at hold
        cases hold
    | some used =>
        rw [hq, Option.getD_some] at hold
        exact hzero used hq other hold

theorem count_released (h : q.release key = some q') (other : Digest) :
    q'.count other = if other = key then q.count key - 1 else q.count other := by
  obtain ⟨used, hused, rfl⟩ := Option.map_eq_some_iff.mp h
  simp only [count, hused, Option.bind_some, Dict.get?_set_self, Option.getD_some]
  by_cases hlast : (used.get? key).getD 0 - 1 = 0
  · rw [if_pos hlast, Dict.get?_erase, Dict.get?_set]
    by_cases hother : other = key
    · rw [if_pos hother, if_pos hother, Option.getD_none, hlast]
    · rw [if_neg hother, if_neg hother, if_neg hother]
  · rw [if_neg hlast, Dict.get?_set]
    by_cases hother : other = key
    · rw [if_pos hother, if_pos hother, Option.getD_some]
    · rw [if_neg hother, if_neg hother]

theorem made_of_release (h : q.release key = some q') :
    q'.maximum = q.maximum ∧ q'.used.isSome := by
  obtain ⟨used, -, rfl⟩ := Option.map_eq_some_iff.mp h
  exact ⟨rfl, rfl⟩

theorem NoZero.release (hzero : q.NoZero) (h : q.release key = some q') : q'.NoZero := by
  obtain ⟨old, hold, rfl⟩ := Option.map_eq_some_iff.mp h
  intro used hused other hother
  have hset : ∀ v, (old.set key v).get? other = some 0 → v = 0 := by
    intro v hget
    rcases Dict.get?_set_cases hget with ⟨-, hvalue⟩ | ⟨-, hkept⟩
    · exact hvalue.symm
    · exact absurd hkept (hzero old hold other)
  rw [Option.mem_def, Option.some.injEq, Dict.get?_set_self, Option.getD_some] at hused
  by_cases hlast : (old.get? key).getD 0 - 1 = 0
  · rw [if_pos hlast] at hused
    rw [← hused] at hother
    obtain ⟨hkey, hkept⟩ := Dict.get?_of_erase hother
    rw [Dict.get?_set_ne _ _ hkey] at hkept
    exact hzero old hold other hkept
  · rw [if_neg hlast] at hused
    rw [← hused] at hother
    exact hlast (hset _ hother)

theorem NoZero.entries_eq_nil (hzero : q.NoZero) (hcount : ∀ key, q.count key = 0)
    {used : Dict Digest Int} (hused : q.used = some used) : used.entries = [] := by
  apply List.eq_nil_iff_forall_not_mem.mpr
  rintro ⟨key, value⟩ hmem
  have hget := used.get?_eq_some_iff.mpr hmem
  have hvalue := hcount key
  rw [count, hused, Option.bind_some, hget, Option.getD_some] at hvalue
  rw [hvalue] at hget
  exact hzero used hused key hget

end FlowQuota

section Machine

-- The `sync.Once` of a returned function: not called, inside `Do`, or done.
inductive Once where
  | fresh
  | running
  | done
  deriving DecidableEq

structure Grant (Digest : Type) where
  identity : Text
  key : Digest
  once : Once
  deriving DecidableEq

structure State (Digest : Type) where
  quota : FlowQuota Digest
  grants : List (Grant Digest)
  deriving DecidableEq

inductive Event where
  | acquire (identity : Text)
  -- a call of the function of the n-th grant, first or repeated
  | release (n : Nat)
  -- the section under the mutex that ends its first call
  | discharge (n : Nat)
  deriving DecidableEq

def start (maximum : Int) : State Digest := ⟨⟨maximum, none⟩, []⟩

def State.mark (s : State Digest) (n : Nat) (g : Grant Digest) (once : Once) :
    List (Grant Digest) :=
  s.grants.set n { g with once := once }

-- `sum256` is SHA-256. A call that finds the function running waits until it is done.
def step (sum256 : Text → Digest) (s : State Digest) : Event → Option (State Digest)
  | .acquire identity =>
      match s.quota.acquire (sum256 identity) with
      | none => some s
      | some quota => some ⟨quota, s.grants ++ [⟨identity, sum256 identity, .fresh⟩]⟩
  | .release n =>
      s.grants[n]?.bind fun g =>
        match g.once with
        | .fresh => some { s with grants := s.mark n g .running }
        | .running => none
        | .done => some s
  | .discharge n =>
      (s.grants[n]?.filter fun g => g.once = .running).bind fun g =>
        (s.quota.release g.key).map fun quota => ⟨quota, s.mark n g .done⟩

def Grant.live (g : Grant Digest) : Bool := g.once ≠ .done

def State.live (s : State Digest) (identity : Text) : Nat :=
  s.grants.countP fun g => g.live && g.identity = identity

def State.subject (s : State Digest) : Event → Option Text
  | .acquire identity => some identity
  | .release n => s.grants[n]?.map Grant.identity
  | .discharge n => s.grants[n]?.map Grant.identity

-- The identities that are presented to the relay.
def AcquiresFrom (known : Set Text) : State Digest → Event → Prop
  | _, .acquire identity => identity ∈ known
  | _, _ => True

instance (known : Set Text) [DecidablePred (· ∈ known)] (s : State Digest) (e : Event) :
    Decidable (AcquiresFrom known s e) :=
  match e with
  | .acquire identity => inferInstanceAs (Decidable (identity ∈ known))
  | .release _ => isTrue trivial
  | .discharge _ => isTrue trivial

variable {sum256 : Text → Digest} {s s' : State Digest}

theorem step_cases {e : Event} (h : step sum256 s e = some s') :
    s' = s ∨
    (∃ identity quota, e = .acquire identity ∧ s.quota.acquire (sum256 identity) = some quota ∧
      s' = ⟨quota, s.grants ++ [⟨identity, sum256 identity, .fresh⟩]⟩) ∨
    (∃ n g, e = .release n ∧ s.grants[n]? = some g ∧ g.once = .fresh ∧
      s' = { s with grants := s.mark n g .running }) ∨
    (∃ n g quota, e = .discharge n ∧ s.grants[n]? = some g ∧ g.once = .running ∧
      s.quota.release g.key = some quota ∧ s' = ⟨quota, s.mark n g .done⟩) := by
  cases e with
  | acquire identity =>
      unfold step at h
      cases hquota : s.quota.acquire (sum256 identity) with
      | none =>
          simp only [hquota, Option.some.injEq] at h
          exact .inl h.symm
      | some quota =>
          simp only [hquota, Option.some.injEq] at h
          exact .inr (.inl ⟨identity, quota, rfl, hquota, h.symm⟩)
  | release n =>
      obtain ⟨g, hg, hstep⟩ := Option.bind_eq_some_iff.mp h
      cases honce : g.once with
      | fresh =>
          simp only [honce, Option.some.injEq] at hstep
          exact .inr (.inr (.inl ⟨n, g, rfl, hg, honce, hstep.symm⟩))
      | running =>
          simp only [honce] at hstep
          cases hstep
      | done =>
          simp only [honce, Option.some.injEq] at hstep
          exact .inl hstep.symm
  | discharge n =>
      obtain ⟨g, hfilter, hstep⟩ := Option.bind_eq_some_iff.mp h
      obtain ⟨hg, honce⟩ := Option.filter_eq_some_iff.mp hfilter
      obtain ⟨quota, hquota, hs'⟩ := Option.map_eq_some_iff.mp hstep
      exact .inr (.inr (.inr ⟨n, g, quota, rfl, hg, by simpa using honce, hquota, hs'.symm⟩))

end Machine

section Counts

variable {sum256 : Text → Digest} {known : Set Text} {maximum : Int} {s s' : State Digest}

def State.liveAt (s : State Digest) (key : Digest) : Nat :=
  s.grants.countP fun g => g.live && g.key = key

omit [DecidableEq Digest] in
theorem countP_mark {n : Nat} {g : Grant Digest} (hg : s.grants[n]? = some g) (once : Once)
    (p : Grant Digest → Bool) :
    (s.mark n g once).countP p + (if p g then 1 else 0) =
      s.grants.countP p + if p { g with once := once } then 1 else 0 := by
  obtain ⟨hlt, hget⟩ := List.getElem?_eq_some_iff.mp hg
  rw [State.mark, List.countP_set hlt, hget]
  by_cases hp : p g
  · have hpos : 0 < s.grants.countP p := List.countP_pos_iff.mpr ⟨g, List.mem_of_getElem? hg, hp⟩
    rw [if_pos hp]
    omega
  · rw [if_neg hp]
    omega

theorem liveAt_mark {n : Nat} {g : Grant Digest} (hg : s.grants[n]? = some g)
    (hlive : g.once ≠ .done) (quota : FlowQuota Digest) (once : Once) (key : Digest) :
    State.liveAt ⟨quota, s.mark n g once⟩ key + (if g.key = key then 1 else 0) =
      s.liveAt key + if once ≠ .done ∧ g.key = key then 1 else 0 := by
  have hmark := countP_mark hg once fun g => g.live && g.key = key
  simp only [Grant.live, Bool.and_eq_true, decide_eq_true_eq, hlive, not_false_eq_true,
    true_and, ne_eq] at hmark
  exact hmark

structure Exact (sum256 : Text → Digest) (known : Set Text) (maximum : Int)
    (s : State Digest) : Prop where
  maximum_eq : s.quota.maximum = maximum
  noZero : s.quota.NoZero
  made : s.grants ≠ [] → s.quota.used.isSome
  digest : ∀ g ∈ s.grants, g.key = sum256 g.identity ∧ g.identity ∈ known
  count_eq : ∀ key, s.quota.count key = s.liveAt key
  count_le : ∀ key, s.quota.count key ≤ maximum

theorem exact_start (h : 0 ≤ maximum) : Exact sum256 known maximum (start maximum) where
  maximum_eq := rfl
  noZero := fun _ hused => absurd hused (by simp [start])
  made := fun hne => absurd rfl hne
  digest := fun g hg => absurd hg List.not_mem_nil
  count_eq := fun _ => rfl
  count_le := fun _ => h

theorem Exact.acquire (hs : Exact sum256 known maximum s) {identity : Text}
    (hknown : identity ∈ known) {quota : FlowQuota Digest}
    (hquota : s.quota.acquire (sum256 identity) = some quota) :
    Exact sum256 known maximum
      ⟨quota, s.grants ++ [⟨identity, sum256 identity, .fresh⟩]⟩ := by
  obtain ⟨hroom, hmade⟩ := FlowQuota.acquire_eq_some_iff.mp hquota
  have hcount := FlowQuota.count_acquired hquota
  have hold := hs.count_eq (sum256 identity)
  refine ⟨?_, hs.noZero.acquire (by omega) hquota, fun _ => ?_, ?_, ?_, ?_⟩
  · rw [hmade]
    exact hs.maximum_eq
  · rw [hmade]
    rfl
  · intro g hg
    rcases List.mem_append.mp hg with hbefore | hnew
    · exact hs.digest g hbefore
    · rw [List.mem_singleton.mp hnew]
      exact ⟨rfl, hknown⟩
  · intro key
    have hkey := hs.count_eq key
    simp only [hcount, State.liveAt, List.countP_append, List.countP_singleton] at hkey hold ⊢
    by_cases heq : key = sum256 identity
    · simp [Grant.live, heq, hold]
    · simp [Grant.live, heq, Ne.symm heq, hkey]
  · intro key
    have hle := hs.count_le key
    have hmaximum := hs.maximum_eq
    simp only [hcount]
    by_cases heq : key = sum256 identity
    · rw [if_pos heq]
      omega
    · rw [if_neg heq]
      exact hle

theorem Exact.digest_mark (hs : Exact sum256 known maximum s) {n : Nat} {g : Grant Digest}
    (hg : s.grants[n]? = some g) (once : Once) :
    ∀ other ∈ s.mark n g once, other.key = sum256 other.identity ∧ other.identity ∈ known := by
  intro other hother
  rcases List.mem_or_eq_of_mem_set hother with hold | hnew
  · exact hs.digest other hold
  · rw [hnew]
    exact hs.digest g (List.mem_of_getElem? hg)

omit [DecidableEq Digest] in
theorem ne_nil_of_getElem? {n : Nat} {g : Grant Digest} (hg : s.grants[n]? = some g) :
    s.grants ≠ [] :=
  List.ne_nil_of_mem (List.mem_of_getElem? hg)

theorem Exact.release (hs : Exact sum256 known maximum s) {n : Nat} {g : Grant Digest}
    (hg : s.grants[n]? = some g) (honce : g.once = .fresh) :
    Exact sum256 known maximum { s with grants := s.mark n g .running } := by
  refine ⟨hs.maximum_eq, hs.noZero, fun _ => hs.made (ne_nil_of_getElem? hg),
    hs.digest_mark hg .running, fun key => ?_, hs.count_le⟩
  have hmark := liveAt_mark hg (by simp [honce]) s.quota .running key
  have hkey := hs.count_eq key
  simp only [ne_eq, reduceCtorEq, not_false_eq_true, true_and, Nat.add_right_cancel_iff] at hmark
  rw [hmark]
  exact hkey

theorem Exact.discharge (hs : Exact sum256 known maximum s) {n : Nat} {g : Grant Digest}
    (hg : s.grants[n]? = some g) (honce : g.once = .running) {quota : FlowQuota Digest}
    (hquota : s.quota.release g.key = some quota) :
    Exact sum256 known maximum ⟨quota, s.mark n g .done⟩ := by
  obtain ⟨hmaximum, hmade⟩ := FlowQuota.made_of_release hquota
  have hcount := FlowQuota.count_released hquota
  refine ⟨hmaximum.trans hs.maximum_eq, hs.noZero.release hquota, fun _ => hmade,
    hs.digest_mark hg .done, fun key => ?_, fun key => ?_⟩
  · have hkey := hs.count_eq key
    have hmark := liveAt_mark hg (by simp [honce]) quota .done key
    simp only [ne_eq, not_true_eq_false, false_and, if_false] at hmark
    simp only [hcount]
    by_cases heq : key = g.key
    · subst heq
      rw [if_pos rfl] at hmark ⊢
      omega
    · rw [if_neg (Ne.symm heq)] at hmark
      rw [if_neg heq]
      omega
  · have hle := hs.count_le key
    simp only [hcount]
    by_cases heq : key = g.key
    · subst heq
      rw [if_pos rfl]
      omega
    · rw [if_neg heq]
      exact hle

theorem Exact.of_step {e : Event} (hs : Exact sum256 known maximum s)
    (he : AcquiresFrom known s e) (h : step sum256 s e = some s') :
    Exact sum256 known maximum s' := by
  rcases step_cases h with rfl | ⟨identity, quota, rfl, hquota, rfl⟩ |
    ⟨n, g, -, hg, honce, rfl⟩ | ⟨n, g, quota, -, hg, honce, hquota, rfl⟩
  · exact hs
  · exact hs.acquire he hquota
  · exact hs.release hg honce
  · exact hs.discharge hg honce hquota

theorem Exact.live_eq (hs : Exact sum256 known maximum s) (hinj : Set.InjOn sum256 known)
    {identity : Text} (hknown : identity ∈ known) :
    s.live identity = s.liveAt (sum256 identity) := by
  apply List.countP_congr
  intro g hg
  obtain ⟨hkey, hmem⟩ := hs.digest g hg
  rw [Bool.and_eq_true, Bool.and_eq_true, decide_eq_true_eq, decide_eq_true_eq, hkey,
    hinj.eq_iff hmem hknown]

theorem Exact.count_frame (hs : Exact sum256 known maximum s) (hinj : Set.InjOn sum256 known)
    {e : Event} (he : AcquiresFrom known s e) (h : step sum256 s e = some s') {identity : Text}
    (hknown : identity ∈ known) (hother : s.subject e ≠ some identity) :
    s'.quota.count (sum256 identity) = s.quota.count (sum256 identity) := by
  rcases step_cases h with rfl | ⟨owner, quota, rfl, hquota, rfl⟩ |
    ⟨n, g, -, -, -, rfl⟩ | ⟨n, g, quota, rfl, hg, -, hquota, rfl⟩
  · rfl
  · have hne : sum256 identity ≠ sum256 owner := fun heq =>
      hother (congrArg some (hinj hknown he heq).symm)
    rw [FlowQuota.count_acquired hquota, if_neg hne]
  · rfl
  · obtain ⟨hkey, hmem⟩ := hs.digest g (List.mem_of_getElem? hg)
    have hne : sum256 identity ≠ g.key := by
      intro heq
      rw [hkey] at heq
      apply hother
      rw [State.subject, hg, Option.map_some, hinj hknown hmem heq]
    rw [FlowQuota.count_released hquota, if_neg hne]

theorem Exact.discharge_isSome (hs : Exact sum256 known maximum s) {n : Nat} {g : Grant Digest}
    (hg : s.grants[n]? = some g) (honce : g.once = .running) :
    (step sum256 s (.discharge n)).isSome := by
  obtain ⟨used, hused⟩ := Option.isSome_iff_exists.mp (hs.made (ne_nil_of_getElem? hg))
  have hrunning : (some g).filter (fun g => g.once = .running) = some g := by
    rw [Option.filter_some, if_pos (by simpa using honce)]
  rw [step, hg, hrunning, Option.bind_some, Option.isSome_map, FlowQuota.release,
    Option.isSome_map, hused]
  rfl

theorem Exact.entries_eq_nil (hs : Exact sum256 known maximum s)
    (hdone : ∀ g ∈ s.grants, g.once = .done) {used : Dict Digest Int}
    (hused : s.quota.used = some used) : used.entries = [] := by
  refine hs.noZero.entries_eq_nil (fun key => ?_) hused
  have hnone : s.liveAt key = 0 := by
    apply List.countP_eq_zero.mpr
    intro g hg
    simp [Grant.live, hdone g hg]
  rw [hs.count_eq, hnone]
  rfl

end Counts

-- Whatever the order of the calls: the map counts the live flows of every client, at
-- most `maximum` of them; a client is refused exactly when it holds that many; an
-- operation leaves the other clients' counts alone; a call of a release function never
-- panics; and once all flows are released the map is empty.
theorem flow_quota_is_exact {sum256 : Text → Digest} {known : Set Text}
    (hinj : Set.InjOn sum256 known) {maximum : Int} (hmax : 1 ≤ maximum) {s : State Digest}
    (hr : Reaches (step sum256) (AcquiresFrom known) (start maximum) s) :
    (∀ identity ∈ known,
      s.quota.count (sum256 identity) = s.live identity ∧ (s.live identity : Int) ≤ maximum ∧
        (s.quota.acquire (sum256 identity) = none ↔ (s.live identity : Int) = maximum)) ∧
      (∀ e s', AcquiresFrom known s e → step sum256 s e = some s' →
        ∀ identity ∈ known, s.subject e ≠ some identity →
          s'.quota.count (sum256 identity) = s.quota.count (sum256 identity)) ∧
      (∀ n g, s.grants[n]? = some g → g.once = .running →
        (step sum256 s (.discharge n)).isSome) ∧
      ((∀ g ∈ s.grants, g.once = .done) → ∀ used ∈ s.quota.used, used.entries = []) := by
  have hs : Exact sum256 known maximum s :=
    hr.invariant (fun _ _ _ hb ha hstep => hb.of_step ha hstep) (exact_start (by omega))
  refine ⟨fun identity hknown => ?_, fun e s' he hstep identity hknown hother =>
    hs.count_frame hinj he hstep hknown hother, fun n g hg honce => hs.discharge_isSome hg honce,
    fun hdone used hused => hs.entries_eq_nil hdone hused⟩
  have hcount := hs.count_eq (sum256 identity)
  have hle := hs.count_le (sum256 identity)
  rw [hs.live_eq hinj hknown, FlowQuota.acquire_eq_none_iff, hs.maximum_eq]
  refine ⟨hcount, by omega, by omega⟩

-- One flow for each client: alice is refused a second one, bob is not; a function called
-- twice gives back one flow, and alice gets the next.
def fairCalls : List Event :=
  [.acquire "alice".toList, .acquire "alice".toList, .acquire "bob".toList, .release 1,
    .discharge 1, .release 0, .discharge 0, .release 0, .acquire "alice".toList]

theorem fair_calls_counted :
    ∃ s : State Text, runSteps (step id) (start 1) fairCalls = some s ∧
      s.quota.used = some (Dict.empty.set "alice".toList 1) ∧
      s.quota.acquire "alice".toList = none ∧
      ∀ identity, s.quota.count identity = s.live identity ∧ (s.live identity : Int) ≤ 1 := by
  have hread : (runSteps (step id) (start 1 : State Text) fairCalls).any (fun s =>
      decide (s.quota.used = some (Dict.empty.set "alice".toList 1)) &&
        decide (s.quota.acquire "alice".toList = none)) = true := by
    decide
  obtain ⟨s, hrun, hend⟩ := (Option.any_eq_true _ _).mp hread
  simp only [Bool.and_eq_true, decide_eq_true_eq] at hend
  have hr : Reaches (step id) (AcquiresFrom Set.univ) (start 1) s :=
    .of_runSteps hrun (by decide)
  refine ⟨s, hrun, hend.1, hend.2, fun identity => ?_⟩
  have hexact := (flow_quota_is_exact (Set.injOn_id _) (by decide) hr).1 identity (Set.mem_univ _)
  exact ⟨hexact.1, hexact.2.1⟩

end OpenvpnServer.Relay.Quota
