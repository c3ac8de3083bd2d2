import Mathlib.Data.List.Infix
import OpenvpnServer.Lib.Python

-- `bin/recover-checkout.py`: an interrupted deployment checkout is brought to origin/main,
-- and the runtime configs of an older stash are put back.
namespace OpenvpnServer.Recovery

open OpenvpnServer.Lib

section Names

-- CODE_DIRS without .git
def codeDirs : List Text :=
  ([".github", "bin", "relay", "signer", "postgres", "tests", "ui"] : List String).map String.toList

def codeFiles : List Text :=
  ([".dockerignore", ".env.example", ".gitignore", "CHANGELOG.md", "README.md", "backup.sh",
    "docker-compose.yml", "Dockerfile", "docker-entrypoint.sh", "LICENSE"] : List String).map
      String.toList

def runtimeConfigs : List Text :=
  (["server.conf", "config/client.conf", "config/easy-rsa.vars", "fw-rules.sh"] : List String).map
    String.toList

def compose : Text := "docker-compose.yml".toList

def recoveryPrefix : Text := "openvpn-checkout-recovery-".toList

def isCode (name : Text) : Bool :=
  codeFiles.contains name || codeDirs.any fun folder => (folder ++ ['/']).isPrefixOf name

end Names

-- Commits and the contents of files; a file that is absent has none.
variable {κ α : Type}

section Git

structure Stash (κ α : Type) where
  base : κ
  tree : Text → Option α
  subject : Text

structure Checkout (κ α : Type) where
  head : κ
  working : Text → Option α
  stashes : List (Stash κ α)

-- The git commands that are used; a failed one has an exit status.
structure Git (κ α : Type) where
  tree : κ → Text → Option α
  isAncestor : κ → κ → Except Nat Unit
  lsTree : κ → Except Nat (List Text)
  changed : Checkout κ α → Except Nat (List Text)
  untracked : Checkout κ α → Except Nat (List Text)
  stashPush : Checkout κ α → Text → List Text → Except Nat (Checkout κ α)
  merge : Checkout κ α → κ → Except Nat (Checkout κ α)

-- `git stash push -- paths` touches only those paths, and `git merge --ff-only` fails rather
-- than overwrite a tracked file whose content differs from HEAD.
structure GitRules (git : Git κ α) : Prop where
  stash_head : ∀ {s s' subject paths}, git.stashPush s subject paths = .ok s' → s'.head = s.head
  stash_paths : ∀ {s s' subject paths}, git.stashPush s subject paths = .ok s' →
    ∀ name ∉ paths, s'.working name = s.working name
  merge_keeps : ∀ {s s' target}, git.merge s target = .ok s' →
    ∀ name, git.tree s.head name ≠ none → s.working name ≠ git.tree s.head name →
      s'.working name = s.working name

end Git

section Errors

inductive RecoveryError where
  | prepare (message : Text)
  | command (action : String) (status : Nat)
  | symlinked (name : Text)
  | readAccess (name : Text)
  | composeSettings
  | independent (name : Text)
  | writeAccess (name : Text)
  deriving DecidableEq

def RecoveryError.message : RecoveryError → Text
  | .prepare message => message
  | .command action status =>
      action.toList ++ " failed (exit ".toList ++ (Nat.repr status).toList ++
        "); recovery stopped, saved state retained".toList
  | .symlinked name => name ++ ": symlinked runtime configuration needs manual review".toList
  | .readAccess name => name ++ ": read access requires --repair-permissions".toList
  | .composeSettings =>
      ("The previous stash contains custom Compose settings. " ++
        "Review the private saved copy before updating").toList
  | .independent name =>
      name ++ ": independent configuration changes need review; neither copy was overwritten".toList
  | .writeAccess name => name ++ ": write access requires --repair-permissions".toList

-- A git command whose exit status ends the recovery.
def Git.run {β : Type} (action : String) : Except Nat β → Except RecoveryError β
  | .ok value => .ok value
  | .error status => .error (.command action status)

end Errors

-- The machine the script runs on: whether `prepare` refuses, what was fetched, and which
-- runtime files it may read and write.
structure Host (κ : Type) where
  prepareError : Option Text
  fetched : Except Nat κ
  symlinked : Text → Bool
  readDenied : Text → Bool
  writeDenied : Text → Bool
  backupName : Text

section Plan

variable [DecidableEq α] (git : Git κ α) (host : Host κ)

def readRuntime (s : Checkout κ α) (name : Text) : Except RecoveryError (Option α) :=
  if host.symlinked name then .error (.symlinked name)
  else if (s.working name).isSome ∧ host.readDenied name = true then .error (.readAccess name)
  else .ok (s.working name)

-- The private copies that are made for a file, and the content that is to be written.
def planName (s : Checkout κ α) (stash : Stash κ α) (target : κ) (name : Text) :
    List (Text × α) × Except RecoveryError (Option α) :=
  let base := git.tree stash.base name
  let saved := stash.tree name
  if saved = base then ([], .ok none)
  else
    let copies := (saved.map fun data => ("previous-stash/".toList ++ name, data)).toList
    if name = compose then
      if saved = base ∨ saved = git.tree target name then (copies, .ok none)
      else (copies, .error .composeSettings)
    else
      match readRuntime host s name with
      | .error failure => (copies, .error failure)
      | .ok current =>
          let copies := copies ++
            (current.map fun data => ("working-config/".toList ++ name, data)).toList
          if current = saved then (copies, .ok none)
          else if base = none ∨ saved = none ∨ current ≠ base ∨
              (git.tree target name ≠ base ∧ git.tree target name ≠ saved) then
            (copies, .error (.independent name))
          else (copies, .ok saved)

def planNames (s : Checkout κ α) (stash : Stash κ α) (target : κ) :
    List Text → List (Text × α) × Except RecoveryError (List (Text × α))
  | [] => ([], .ok [])
  | name :: rest =>
      match planName git host s stash target name with
      | (copies, .error failure) => (copies, .error failure)
      | (copies, .ok entry) =>
          let others := planNames s stash target rest
          (copies ++ others.1, others.2.map fun plan => (entry.map fun data => (name, data)).toList ++ plan)

def runtimePlan (s : Checkout κ α) (stash : Option (Stash κ α)) (target : κ) :
    List (Text × α) × Except RecoveryError (List (Text × α)) :=
  match stash with
  | none => ([], .ok [])
  | some stash => planNames git host s stash target (runtimeConfigs ++ [compose])

def setFile (working : Text → Option α) (name : Text) (data : α) : Text → Option α :=
  fun other => if other = name then some data else working other

-- `restore_runtime`: the files before one that may not be written stay restored.
def restoreRuntime : List (Text × α) → (Text → Option α) →
    (Text → Option α) × Except RecoveryError Unit
  | [], working => (working, .ok ())
  | (name, data) :: rest, working =>
      if host.writeDenied name then (working, .error (.writeAccess name))
      else restoreRuntime rest (setFile working name data)

end Plan

section Run

variable [DecidableEq κ] [DecidableEq α] (git : Git κ α) (host : Host κ)

-- Our own code-only stashes are no source of older runtime configs.
def originalStash (s : Checkout κ α) : Option (Stash κ α) :=
  s.stashes.find? fun stash => decide (¬recoveryPrefix <:+: stash.subject ∧ stash.base = s.head)

-- What is decided before anything is changed: the paths to stash and the plan.
structure Decision (κ α : Type) where
  target : κ
  plan : List (Text × α)
  paths : List Text

def decideRecovery (s : Checkout κ α) : Except RecoveryError (Decision κ α) := do
  if let some message := host.prepareError then
    throw (.prepare message)
  let target ← Git.run "git fetch" host.fetched
  Git.run "git merge-base" (git.isAncestor s.head target)
  let plan ← (runtimePlan git host s (originalStash s) target).2
  let remoteFiles ← Git.run "git ls-tree" (git.lsTree target)
  let changed ← Git.run "git diff" (git.changed s)
  let untracked ← Git.run "git ls-files" (git.untracked s)
  let paths := changed.filter isCode ++
    untracked.filter fun path => remoteFiles.contains path && isCode path
  pure ⟨target, plan, paths⟩

def stashCode (s : Checkout κ α) (paths : List Text) : Except RecoveryError (Checkout κ α) :=
  if paths = [] then .ok s
  else Git.run "git stash" (git.stashPush s (recoveryPrefix ++ host.backupName) paths)

-- `run`: the checkout it leaves, and whether it completed.
def run (s : Checkout κ α) : Checkout κ α × Except RecoveryError Unit :=
  match decideRecovery git host s with
  | .error failure => (s, .error failure)
  | .ok decision =>
      match stashCode git host s decision.paths with
      | .error failure => (s, .error failure)
      | .ok stashed =>
          match Git.run "git merge" (git.merge stashed decision.target) with
          | .error failure => (stashed, .error failure)
          | .ok merged =>
              let restored := restoreRuntime host decision.plan merged.working
              ({ merged with working := restored.1 }, restored.2)

end Run

end OpenvpnServer.Recovery
