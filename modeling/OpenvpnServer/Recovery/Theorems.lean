import OpenvpnServer.Recovery.Checkout

namespace OpenvpnServer.Recovery

open OpenvpnServer.Lib

variable {κ α : Type}

section Names

theorem isCode_runtime : ∀ name ∈ runtimeConfigs, isCode name = false := by decide

theorem ne_compose_of_runtime : ∀ name ∈ runtimeConfigs, name ≠ compose := by decide

end Names

section Plan

variable {git : Git κ α} {host : Host κ} {s : Checkout κ α} {stash : Stash κ α} {target : κ}
  {name : Text} {plan : List (Text × α)}

theorem readRuntime_eq {current : Option α} (h : readRuntime host s name = .ok current) :
    current = s.working name := by
  unfold readRuntime at h
  split at h
  · cases h
  · split at h
    · cases h
    · cases h
      rfl

variable [DecidableEq α]

-- The versions of a runtime config that the recovery does not decide between: the working
-- copy is neither the base's nor the stash's, or the base's while the target has another.
def Conflict (git : Git κ α) (s : Checkout κ α) (stash : Stash κ α) (target : κ) (name : Text) :
    Prop :=
  (s.working name ≠ git.tree stash.base name ∧ s.working name ≠ stash.tree name) ∨
    (s.working name = git.tree stash.base name ∧
      git.tree target name ≠ git.tree stash.base name ∧ git.tree target name ≠ stash.tree name)

theorem planName_ok {entry : Option α} (hruntime : name ≠ compose)
    (hchanged : stash.tree name ≠ git.tree stash.base name)
    (h : (planName git host s stash target name).2 = .ok entry) :
    (entry = none ∧ s.working name = stash.tree name) ∨
      (entry = stash.tree name ∧ stash.tree name ≠ none ∧
        s.working name = git.tree stash.base name ∧
        (git.tree target name = git.tree stash.base name ∨
          git.tree target name = stash.tree name)) := by
  unfold planName at h
  dsimp only at h
  rw [if_neg hchanged, if_neg hruntime] at h
  cases hread : readRuntime host s name with
  | error failure =>
      rw [hread] at h
      cases h
  | ok current =>
      rw [hread] at h
      rw [readRuntime_eq hread] at h
      dsimp only at h
      split at h
      · rename_i hsame
        cases h
        exact .inl ⟨rfl, hsame⟩
      · split at h
        · cases h
        · rename_i hdecided
          simp only [not_or, not_and_or, not_not] at hdecided
          cases h
          exact .inr ⟨rfl, hdecided.2.1, hdecided.2.2.1, hdecided.2.2.2⟩

theorem planName_conflict (hruntime : name ≠ compose)
    (hchanged : stash.tree name ≠ git.tree stash.base name)
    (hconflict : Conflict git s stash target name) :
    ∃ failure, (planName git host s stash target name).2 = .error failure := by
  cases h : (planName git host s stash target name).2 with
  | error failure => exact ⟨failure, rfl⟩
  | ok entry =>
      rcases planName_ok hruntime hchanged h with ⟨-, hsaved⟩ | ⟨-, -, hbase, htarget⟩
      · rcases hconflict with ⟨-, hother⟩ | ⟨hbase, -, -⟩
        · exact absurd hsaved hother
        · exact absurd (hsaved.symm.trans hbase) hchanged
      · rcases hconflict with ⟨hother, -⟩ | ⟨-, hnotBase, hnotSaved⟩
        · exact absurd hbase hother
        · rcases htarget with hsame | hsame
          · exact absurd hsame hnotBase
          · exact absurd hsame hnotSaved

theorem planNames_cons_ok {first : Text} {rest : List Text}
    (h : (planNames git host s stash target (first :: rest)).2 = .ok plan) :
    ∃ entry others, (planName git host s stash target first).2 = .ok entry ∧
      (planNames git host s stash target rest).2 = .ok others ∧
      plan = (entry.map fun data => (first, data)).toList ++ others ∧
      (planNames git host s stash target (first :: rest)).1 =
        (planName git host s stash target first).1 ++ (planNames git host s stash target rest).1 := by
  rw [planNames] at h ⊢
  cases hfirst : planName git host s stash target first with
  | mk copies outcome =>
      rw [hfirst] at h
      cases outcome with
      | error failure => cases h
      | ok entry =>
          dsimp only at h ⊢
          cases hrest : (planNames git host s stash target rest).2 with
          | error failure =>
              rw [hrest] at h
              cases h
          | ok others =>
              rw [hrest] at h
              cases h
              exact ⟨entry, others, rfl, rfl, rfl, rfl⟩

theorem planNames_spec {names : List Text}
    (h : (planNames git host s stash target names).2 = .ok plan) :
    (∀ name ∈ names, ∃ entry, (planName git host s stash target name).2 = .ok entry ∧
      ∀ data, entry = some data → (name, data) ∈ plan) ∧
    ∀ item ∈ plan, item.1 ∈ names ∧
      (planName git host s stash target item.1).2 = .ok (some item.2) := by
  induction names generalizing plan with
  | nil =>
      cases h
      exact ⟨fun name hname => absurd hname List.not_mem_nil,
        fun item hitem => absurd hitem List.not_mem_nil⟩
  | cons first rest ih =>
      obtain ⟨entry, others, hfirst, hrest, rfl, -⟩ := planNames_cons_ok h
      obtain ⟨hnames, hitems⟩ := ih hrest
      constructor
      · intro name hname
        rcases List.mem_cons.mp hname with rfl | hmem
        · refine ⟨entry, hfirst, fun data hdata => ?_⟩
          simp [hdata]
        · obtain ⟨found, hfound, hin⟩ := hnames name hmem
          exact ⟨found, hfound, fun data hdata => List.mem_append_right _ (hin data hdata)⟩
      · intro item hitem
        rcases List.mem_append.mp hitem with hnew | hold
        · obtain ⟨data, hdata, rfl⟩ := Option.map_eq_some_iff.mp (Option.mem_toList.mp hnew)
          exact ⟨List.mem_cons_self, by rw [hfirst, hdata]⟩
        · obtain ⟨hmem, hplanned⟩ := hitems item hold
          exact ⟨List.mem_cons_of_mem _ hmem, hplanned⟩

def Copied (s : Checkout κ α) (copies : List (Text × α)) (item : Text × α) : Prop :=
  ("previous-stash/".toList ++ item.1, item.2) ∈ copies ∧
    ∀ current, s.working item.1 = some current →
      ("working-config/".toList ++ item.1, current) ∈ copies

theorem planName_copied {data : α}
    (h : (planName git host s stash target name).2 = .ok (some data)) :
    Copied s (planName git host s stash target name).1 (name, data) := by
  unfold planName at h ⊢
  dsimp only at h ⊢
  by_cases hsame : stash.tree name = git.tree stash.base name
  · rw [if_pos hsame] at h
    cases h
  · rw [if_neg hsame] at h ⊢
    by_cases hcompose : name = compose
    · rw [if_pos hcompose] at h
      split at h <;> cases h
    · rw [if_neg hcompose] at h ⊢
      cases hread : readRuntime host s name with
      | error failure =>
          rw [hread] at h
          cases h
      | ok current =>
          rw [hread] at h
          have hcurrent := readRuntime_eq hread
          dsimp only at h ⊢
          split at h
          · cases h
          · rename_i hother
            split at h
            · cases h
            · rename_i hdecided
              rw [if_neg hother, if_neg hdecided]
              rw [Except.ok.injEq] at h
              refine ⟨List.mem_append_left _ (by simp [h]), fun content hcontent => ?_⟩
              rw [hcurrent, hcontent]
              exact List.mem_append_right _ (by simp)

theorem planNames_conflict {names : List Text} (hname : name ∈ names) (hruntime : name ≠ compose)
    (hchanged : stash.tree name ≠ git.tree stash.base name)
    (hconflict : Conflict git s stash target name) :
    ∃ failure, (planNames git host s stash target names).2 = .error failure := by
  cases h : (planNames git host s stash target names).2 with
  | error failure => exact ⟨failure, rfl⟩
  | ok plan =>
      obtain ⟨entry, hentry, -⟩ := (planNames_spec h).1 name hname
      obtain ⟨failure, hfailure⟩ := @planName_conflict κ α git host s stash target name _ hruntime
        hchanged hconflict
      rw [hfailure] at hentry
      cases hentry

end Plan

section Restore

variable {host : Host κ} {plan : List (Text × α)} {working : Text → Option α}
  {name : Text}

theorem restoreRuntime_keeps (h : ∀ item ∈ plan, item.1 ≠ name) :
    (restoreRuntime host plan working).1 name = working name := by
  induction plan generalizing working with
  | nil => rfl
  | cons item rest ih =>
      obtain ⟨first, data⟩ := item
      unfold restoreRuntime
      split
      · rfl
      · rw [ih fun other hother => h other (List.mem_cons_of_mem _ hother)]
        exact if_neg (Ne.symm (h _ List.mem_cons_self))

theorem restoreRuntime_writes {data : α} (hok : (restoreRuntime host plan working).2 = .ok ())
    (hagree : ∀ item ∈ plan, item.1 = name → item.2 = data)
    (h : (name, data) ∈ plan ∨ working name = some data) :
    (restoreRuntime host plan working).1 name = some data := by
  induction plan generalizing working with
  | nil =>
      rcases h with hmem | hthere
      · cases hmem
      · exact hthere
  | cons item rest ih =>
      obtain ⟨first, content⟩ := item
      unfold restoreRuntime at hok ⊢
      split at hok
      · cases hok
      · rename_i hallowed
        rw [if_neg hallowed]
        refine ih hok (fun other hother => hagree other (List.mem_cons_of_mem _ hother)) ?_
        by_cases hname : name = first
        · have hcontent : content = data := hagree _ List.mem_cons_self hname.symm
          right
          unfold setFile
          rw [if_pos hname, hcontent]
        · rcases h with hmem | hthere
          · rcases List.mem_cons.mp hmem with hsame | hrest
            · cases hsame
              exact absurd rfl hname
            · exact .inl hrest
          · right
            unfold setFile
            rw [if_neg hname]
            exact hthere

end Restore

section Run

variable [DecidableEq κ] {git : Git κ α} {host : Host κ} {s : Checkout κ α} {stash : Stash κ α}

theorem base_of_originalStash (h : originalStash s = some stash) : stash.base = s.head := by
  have hfound := List.find?_some (show s.stashes.find? _ = some stash from h)
  exact (of_decide_eq_true hfound).2

variable [DecidableEq α]

theorem Git.run_ok {β : Type} {action : String} {result : Except Nat β} {value : β}
    (h : Git.run action result = .ok value) : result = .ok value := by
  cases result with
  | ok found => cases h; rfl
  | error status => cases h

theorem exists_of_bind_ok {ε β γ : Type} {result : Except ε β} {next : β → Except ε γ} {value : γ}
    (h : (result >>= next) = .ok value) : ∃ found, result = .ok found ∧ next found = .ok value := by
  cases result with
  | error failure => cases h
  | ok found => exact ⟨found, rfl, h⟩

theorem decideRecovery_ok {decision : Decision κ α}
    (h : decideRecovery git host s = .ok decision) :
    host.fetched = .ok decision.target ∧
      (runtimePlan git host s (originalStash s) decision.target).2 = .ok decision.plan ∧
      ∀ name ∈ decision.paths, isCode name = true := by
  unfold decideRecovery at h
  cases hprepare : host.prepareError with
  | some message => rw [hprepare] at h; cases h
  | none =>
      rw [hprepare] at h
      dsimp only at h
      obtain ⟨target, htarget, h⟩ := exists_of_bind_ok h
      obtain ⟨-, -, h⟩ := exists_of_bind_ok h
      obtain ⟨plan, hplan, h⟩ := exists_of_bind_ok h
      obtain ⟨remoteFiles, -, h⟩ := exists_of_bind_ok h
      obtain ⟨changed, -, h⟩ := exists_of_bind_ok h
      obtain ⟨untracked, -, h⟩ := exists_of_bind_ok h
      cases h
      refine ⟨Git.run_ok htarget, hplan, fun name hname => ?_⟩
      rcases List.mem_append.mp hname with hmem | hmem
      · exact (List.mem_filter.mp hmem).2
      · exact (Bool.and_eq_true_iff.mp (List.mem_filter.mp hmem).2).2

theorem run_conflict {target : κ} (hstash : originalStash s = some stash)
    (htarget : host.fetched = .ok target) {name : Text} (hname : name ∈ runtimeConfigs)
    (hchanged : stash.tree name ≠ git.tree stash.base name)
    (hconflict : Conflict git s stash target name) :
    ∃ failure, run git host s = (s, .error failure) := by
  cases h : decideRecovery git host s with
  | error failure =>
      refine ⟨failure, ?_⟩
      unfold run
      rw [h]
  | ok decision =>
      obtain ⟨hfetched, hplan, -⟩ := decideRecovery_ok h
      rw [htarget, Except.ok.injEq] at hfetched
      rw [hstash, ← hfetched] at hplan
      obtain ⟨failure, hfailure⟩ := @planNames_conflict κ α git host s stash target name _
        (runtimeConfigs ++ [compose]) (List.mem_append_left _ hname)
        (ne_compose_of_runtime name hname) hchanged hconflict
      rw [runtimePlan, hfailure] at hplan
      cases hplan

-- A run that ends early leaves the checkout, or only stashes code; one that comes to the
-- restoring has merged what it stashed from.
theorem run_cases (hgit : GitRules git) :
    (∃ failure s', run git host s = (s', .error failure) ∧
      ∀ name ∈ runtimeConfigs, s'.working name = s.working name) ∨
    ∃ target plan stashed merged, host.fetched = .ok target ∧
      (runtimePlan git host s (originalStash s) target).2 = .ok plan ∧ stashed.head = s.head ∧
      (∀ name ∈ runtimeConfigs, stashed.working name = s.working name) ∧
      git.merge stashed target = .ok merged ∧
      run git host s = ({ merged with working := (restoreRuntime host plan merged.working).1 },
        (restoreRuntime host plan merged.working).2) := by
  unfold run
  cases hdecision : decideRecovery git host s with
  | error failure => exact .inl ⟨failure, s, rfl, fun _ _ => rfl⟩
  | ok decision =>
      obtain ⟨htarget, hplan, hpaths⟩ := decideRecovery_ok hdecision
      dsimp only
      cases hstashed : stashCode git host s decision.paths with
      | error failure => exact .inl ⟨failure, s, rfl, fun _ _ => rfl⟩
      | ok stashed =>
          have hkept : stashed.head = s.head ∧
              ∀ name ∈ runtimeConfigs, stashed.working name = s.working name := by
            unfold stashCode at hstashed
            split at hstashed
            · cases hstashed
              exact ⟨rfl, fun _ _ => rfl⟩
            · have hpushed := Git.run_ok hstashed
              refine ⟨hgit.stash_head hpushed, fun name hname => ?_⟩
              refine hgit.stash_paths hpushed name fun hmem => ?_
              have hcode := hpaths name hmem
              rw [isCode_runtime name hname] at hcode
              cases hcode
          dsimp only
          cases hmerged : Git.run "git merge" (git.merge stashed decision.target) with
          | error failure => exact .inl ⟨failure, stashed, rfl, hkept.2⟩
          | ok merged =>
              exact .inr ⟨decision.target, decision.plan, stashed, merged, htarget, hplan, hkept.1,
                hkept.2, Git.run_ok hmerged, rfl⟩

theorem planned_spec {target : κ} {plan : List (Text × α)} (hstash : originalStash s = some stash)
    (hplan : (runtimePlan git host s (originalStash s) target).2 = .ok plan) {name : Text}
    (hname : name ∈ runtimeConfigs) {data : α} (hitem : (name, data) ∈ plan) :
    stash.tree name = some data ∧ s.working name = git.tree s.head name := by
  rw [hstash, runtimePlan] at hplan
  obtain ⟨-, hplanned⟩ := (planNames_spec hplan).2 _ hitem
  have hchanged : stash.tree name ≠ git.tree stash.base name := by
    intro hsame
    unfold planName at hplanned
    dsimp only at hplanned
    rw [if_pos hsame] at hplanned
    cases hplanned
  rcases planName_ok (ne_compose_of_runtime name hname) hchanged hplanned with
    ⟨hnone, -⟩ | ⟨hsaved, -, hbase, -⟩
  · cases hnone
  · rw [base_of_originalStash hstash] at hbase
    exact ⟨hsaved.symm, hbase⟩

theorem recovery_keeps_configuration (hgit : GitRules git) (host : Host κ) (s : Checkout κ α)
    {stash : Stash κ α} (hstash : originalStash s = some stash) :
    ((run git host s).2 = .ok () → ∀ name ∈ runtimeConfigs, git.tree s.head name ≠ none →
      ∀ data, stash.tree name = some data → stash.tree name ≠ git.tree s.head name →
        (run git host s).1.working name = some data) ∧
    (∀ name ∈ runtimeConfigs, git.tree s.head name ≠ none →
      (run git host s).1.working name ≠ s.working name →
        s.working name = git.tree s.head name) ∧
    ∀ target, host.fetched = .ok target →
      (∃ name ∈ runtimeConfigs, stash.tree name ≠ git.tree s.head name ∧
        Conflict git s stash target name) →
      ∃ failure, run git host s = (s, .error failure) := by
  have hbase := base_of_originalStash hstash
  refine ⟨?_, ?_, ?_⟩
  · intro hok name hname htracked data hdata hchanged
    rcases @run_cases κ α _ git host s _ hgit with
      ⟨failure, s', hrun, -⟩ | ⟨target, plan, stashed, merged, -, hplan, hhead, hkept, hmerge, hrun⟩
    · rw [hrun] at hok
      cases hok
    · rw [hrun] at hok ⊢
      have hagree : ∀ item ∈ plan, item.1 = name → item.2 = data := by
        rintro ⟨first, content⟩ hitem rfl
        have hsaved := (planned_spec hstash hplan hname hitem).1
        rw [hdata, Option.some.injEq] at hsaved
        exact hsaved.symm
      apply restoreRuntime_writes hok hagree
      have hspec := hplan
      rw [hstash, runtimePlan] at hspec
      obtain ⟨entry, hentry, hin⟩ := (planNames_spec hspec).1 name (List.mem_append_left _ hname)
      rcases planName_ok (ne_compose_of_runtime name hname) (hbase ▸ hchanged) hentry with
        ⟨-, hthere⟩ | ⟨hsaved, -, -, -⟩
      · -- the working copy is the stash's, so that the merge leaves it alone
        right
        have hdiffers : stashed.working name ≠ git.tree stashed.head name := by
          rw [hkept name hname, hthere, hhead]
          exact hchanged
        rw [hgit.merge_keeps hmerge name (by rwa [hhead]) hdiffers, hkept name hname, hthere, hdata]
      · exact .inl (hin data (hsaved.trans hdata))
  · intro name hname htracked hwritten
    rcases @run_cases κ α _ git host s _ hgit with
      ⟨failure, s', hrun, hsame⟩ | ⟨target, plan, stashed, merged, -, hplan, hhead, hkept, hmerge, hrun⟩
    · rw [hrun] at hwritten
      exact absurd (hsame name hname) hwritten
    · rw [hrun] at hwritten
      by_cases hplanned : ∃ item ∈ plan, item.1 = name
      · obtain ⟨⟨first, data⟩, hitem, rfl⟩ := hplanned
        exact (planned_spec hstash hplan hname hitem).2
      · by_contra hdiffers
        have hkeeps := hgit.merge_keeps hmerge name (by rwa [hhead])
          (by rwa [hkept name hname, hhead])
        refine hwritten ?_
        dsimp only
        rw [restoreRuntime_keeps fun item hitem hsame => hplanned ⟨item, hitem, hsame⟩, hkeeps,
          hkept name hname]
  · rintro target htarget ⟨name, hname, hchanged, hconflict⟩
    exact run_conflict hstash htarget hname (hbase ▸ hchanged) hconflict

end Run

section Examples

def fastForward (old new : Text → Option Text) (s : Checkout Bool Text) (commit : Bool) :
    Except Nat (Checkout Bool Text) :=
  if ∀ name ∈ runtimeConfigs, new name = old name ∨ s.working name = old name then
    .ok { s with
      head := commit
      working := fun name =>
        if name ∈ runtimeConfigs ∧ new name ≠ old name then new name else s.working name }
  else .error 1

theorem fastForward_keeps {old new : Text → Option Text} {s s' : Checkout Bool Text} {commit : Bool}
    (h : fastForward old new s commit = .ok s') {name : Text} (hdiffers : s.working name ≠ old name) :
    s'.working name = s.working name := by
  unfold fastForward at h
  split at h
  · rename_i hclean
    cases h
    refine if_neg ?_
    rintro ⟨hname, hnew⟩
    rcases hclean name hname with hsame | hsame
    · exact hnew hsame
    · exact hdiffers hsame
  · cases h

def twoCommits (base target : Text → Option Text) : Git Bool Text where
  tree commit := if commit then target else base
  isAncestor _ _ := .ok ()
  lsTree _ := .ok []
  changed _ := .ok []
  untracked _ := .ok []
  stashPush s _ _ := .ok s
  merge s commit :=
    fastForward (if s.head then target else base) (if commit then target else base) s commit

theorem twoCommits_rules (base target : Text → Option Text) : GitRules (twoCommits base target) where
  stash_head := by
    rintro s s' subject paths ⟨⟩
    rfl
  stash_paths := by
    rintro s s' subject paths ⟨⟩ name _
    rfl
  merge_keeps := fun hmerge _ _ hdiffers => fastForward_keeps hmerge hdiffers

def openHost : Host Bool := ⟨none, .ok true, fun _ => false, fun _ => false, fun _ => false, []⟩

def content (server client : String) (name : Text) : Option Text :=
  if name = "server.conf".toList then some server.toList
  else if name = "config/client.conf".toList then some client.toList
  else none

def userStash (server client : String) : Stash Bool Text :=
  ⟨false, content server client, "On main: user stash".toList⟩

theorem originalStash_userStash (working : Text → Option Text) (server client : String) :
    originalStash ⟨false, working, [userStash server client]⟩ = some (userStash server client) := by
  have hsubject : ¬recoveryPrefix <:+: "On main: user stash".toList := by decide
  exact List.find?_cons_of_pos (decide_eq_true ⟨hsubject, rfl⟩)

def oldContent : Text → Option Text := content "port 1197" "remote old"

theorem stashed_config_restored :
    (run (twoCommits oldContent oldContent) openHost
      ⟨false, oldContent, [userStash "port 443" "remote keep"]⟩).1.working "server.conf".toList =
        some "port 443".toList := by
  apply (recovery_keeps_configuration (twoCommits_rules _ _) openHost _
    (originalStash_userStash oldContent "port 443" "remote keep")).1
  · decide
  · decide
  · decide
  · decide
  · decide

def editedContent : Text → Option Text := content "port 8888" "remote old"

theorem edit_outside_stash_kept :
    GitRules (twoCommits oldContent oldContent) ∧
      editedContent "server.conf".toList ≠ oldContent "server.conf".toList ∧
      editedContent "server.conf".toList ≠
        (userStash "port 1197" "remote keep").tree "server.conf".toList ∧
      originalStash ⟨false, editedContent, [userStash "port 1197" "remote keep"]⟩ =
        some (userStash "port 1197" "remote keep") ∧
      (run (twoCommits oldContent oldContent) openHost
        ⟨false, editedContent, [userStash "port 1197" "remote keep"]⟩).2 = .ok () ∧
      (run (twoCommits oldContent oldContent) openHost
        ⟨false, editedContent, [userStash "port 1197" "remote keep"]⟩).1.working
          "server.conf".toList = some "port 8888".toList := by
  refine ⟨twoCommits_rules _ _, by decide, by decide,
    originalStash_userStash _ _ _, by decide, ?_⟩
  decide

end Examples

end OpenvpnServer.Recovery
