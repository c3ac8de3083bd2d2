import OpenvpnServer.Collector.Logs

namespace OpenvpnServer.Collector

open OpenvpnServer.Lib

section Lines

def LogLine.address? : LogLine → Option Text
  | .rejection _ _ _ _ => none
  | .info _ address _ _ => some address
  | .opened _ address _ => some address
  | .ended _ address _ _ => some address

def LogLine.isEnd : LogLine → Bool
  | .ended _ _ _ _ => true
  | _ => false

-- An end line that names a client; the others are no sessions.
def LogLine.endsSession : LogLine → Bool
  | .ended _ _ (some _) _ => true
  | _ => false

def linesOf (address : Text) (lines : List LogLine) : List LogLine :=
  lines.filter fun line => line.address? = some address

def handshakeAfter (peer : Option Peer) : LogLine → Option Peer
  | .rejection _ _ _ _ => peer
  | .info ts _ key value => some ((peer.getD (Peer.new ts)).setInfo value key)
  | .opened ts _ cn => some { peer.getD (Peer.new ts) with ts := ts, cn := some cn }
  | .ended _ _ _ _ => none

def collected (peer : Option Peer) (lines : List LogLine) : Option Peer :=
  lines.foldl handshakeAfter peer

def pendingLine (pending : Pending) (line : LogLine) : Pending :=
  match line.address? with
  | none => pending
  | some address =>
      match handshakeAfter (pending.get? address) line with
      | some peer => pending.set address peer
      | none => pending.erase address

def pendingAfter (pending : Pending) (lines : List LogLine) : Pending :=
  lines.foldl pendingLine pending

def endSession (peer : Option Peer) (db : Database) (ts : Nat) (address cn reason : Text) :
    Database :=
  match db.latestSession cn address (peer.elim 0 fun peer => peer.ts - 30), peer with
  | some (id, _), none => db.updateSession id fun row => { row with endReason := some reason }
  | some (id, _), some peer =>
      (db.updateSession id fun row => { row with endReason := some reason }).updateSession id
        (Session.withDevice address peer)
  | none, some peer =>
      if peer.cn = some cn then
        let (id, db) := db.insertSession (Session.ofLog cn address peer ts reason)
        db.updateSession id (Session.withDevice address peer)
      else db
  | none, none => db

def lineRows (peer : Option Peer) (db : Database) : LogLine → Database
  | .rejection ts client reason address => db.addRejection ts client reason address
  | .ended ts address (some cn) reason => endSession peer db ts address cn reason
  | _ => db

variable {pending other : Pending} {db : Database}

theorem logLine_eq (pending : Pending) (db : Database) (line : LogLine) :
    logLine (pending, db) line =
      (pendingLine pending line, lineRows (line.address?.bind pending.get?) db line) := by
  cases line with
  | rejection ts client reason address => rfl
  | info ts address key value => rfl
  | opened ts address cn => rfl
  | ended ts address cn reason =>
      cases cn with
      | none => rfl
      | some cn =>
          unfold logLine lineRows endSession pendingLine
          simp only [LogLine.address?, Option.bind_some, handshakeAfter]
          cases hp : pending.get? address with
          | none =>
              simp only [Option.elim_none]
              cases db.latestSession cn address 0 <;> rfl
          | some peer =>
              simp only [Option.elim_some]
              cases db.latestSession cn address (peer.ts - 30) with
              | some row => rfl
              | none =>
                  simp only
                  split <;> rfl

theorem foldl_logLine_fst (lines : List LogLine) (pending : Pending) (db : Database) :
    (lines.foldl logLine (pending, db)).1 = pendingAfter pending lines := by
  induction lines generalizing pending db with
  | nil => rfl
  | cons line rest ih =>
      rw [List.foldl_cons, logLine_eq, ih]
      rfl

theorem get?_pendingLine (pending : Pending) (line : LogLine) (address : Text) :
    (pendingLine pending line).get? address =
      if line.address? = some address then handshakeAfter (pending.get? address) line
      else pending.get? address := by
  unfold pendingLine
  cases ha : line.address? with
  | none => simp
  | some own =>
      simp only [Option.some.injEq]
      by_cases he : own = address
      · subst he
        rw [if_pos rfl]
        cases handshakeAfter (pending.get? own) line with
        | none => simp [Dict.get?_erase]
        | some peer => simp
      · rw [if_neg he]
        cases handshakeAfter (pending.get? own) line with
        | none => rw [Dict.get?_erase, if_neg (Ne.symm he)]
        | some peer => rw [Dict.get?_set_ne _ _ (Ne.symm he)]

theorem linesOf_append (address : Text) (a b : List LogLine) :
    linesOf address (a ++ b) = linesOf address a ++ linesOf address b :=
  List.filter_append ..

theorem get?_pendingAfter (pending : Pending) (lines : List LogLine) (address : Text) :
    (pendingAfter pending lines).get? address =
      collected (pending.get? address) (linesOf address lines) := by
  induction lines generalizing pending with
  | nil => rfl
  | cons line rest ih =>
      have hstep := get?_pendingLine pending line address
      rw [pendingAfter, List.foldl_cons, ← pendingAfter, ih, hstep]
      by_cases ha : line.address? = some address
      · rw [if_pos ha, linesOf, linesOf, List.filter_cons_of_pos (by simpa using ha)]
        rfl
      · rw [if_neg ha, linesOf, linesOf, List.filter_cons_of_neg (by simpa using ha)]

theorem pendingAfter_append (pending : Pending) (a b : List LogLine) :
    pendingAfter pending (a ++ b) = pendingAfter (pendingAfter pending a) b :=
  List.foldl_append

theorem foldl_logLine_snd_congr {lines : List LogLine}
    (h : ∀ done line rest, lines = done ++ line :: rest → line.endsSession = true →
      ∀ address, line.address? = some address →
        (pendingAfter pending done).get? address = (pendingAfter other done).get? address)
    (db : Database) :
    (lines.foldl logLine (pending, db)).2 = (lines.foldl logLine (other, db)).2 := by
  induction lines generalizing pending other db with
  | nil => rfl
  | cons line rest ih =>
      have hline : lineRows (line.address?.bind pending.get?) db line =
          lineRows (line.address?.bind other.get?) db line := by
        cases line with
        | ended ts address cn reason =>
            cases cn with
            | none => rfl
            | some cn =>
                have hpeer := h [] _ rest rfl rfl address rfl
                simp only [pendingAfter, List.foldl_nil] at hpeer
                simp only [LogLine.address?, Option.bind_some, hpeer]
        | _ => rfl
      rw [List.foldl_cons, List.foldl_cons, logLine_eq, logLine_eq, hline]
      refine ih (fun done next after he hends address ha => ?_) _
      exact h (line :: done) next after (by rw [he]; rfl) hends address ha

theorem foldl_logLine_snd_of_get? (h : ∀ address, pending.get? address = other.get? address)
    (lines : List LogLine) (db : Database) :
    (lines.foldl logLine (pending, db)).2 = (lines.foldl logLine (other, db)).2 := by
  refine foldl_logLine_snd_congr (fun done line rest _ _ address _ => ?_) db
  rw [get?_pendingAfter, get?_pendingAfter, h]

theorem collected_of_end {lines : List LogLine} (h : ∃ line ∈ lines, line.isEnd = true)
    (peer peer' : Option Peer) : collected peer lines = collected peer' lines := by
  induction lines generalizing peer peer' with
  | nil => simp at h
  | cons line rest ih =>
      by_cases hrest : ∃ later ∈ rest, later.isEnd = true
      · exact ih hrest _ _
      · have hend : line.isEnd = true := by
          obtain ⟨found, hmem, hf⟩ := h
          rcases List.mem_cons.mp hmem with rfl | hmem
          · exact hf
          · exact absurd ⟨found, hmem, hf⟩ hrest
        cases line with
        | ended ts address cn reason => rfl
        | _ => cases hend

end Lines

section Idempotent

structure PeerUpdate where
  ts : Option Nat
  cn : Option Text
  plat : Option Text
  ver : Option Text
  guiVer : Option Text

def PeerUpdate.apply (update : PeerUpdate) (peer : Peer) : Peer :=
  ⟨update.ts.getD peer.ts, update.cn.or peer.cn, update.plat.or peer.plat,
    update.ver.or peer.ver, update.guiVer.or peer.guiVer⟩

theorem PeerUpdate.apply_apply (update : PeerUpdate) (peer : Peer) :
    update.apply (update.apply peer) = update.apply peer := by
  obtain ⟨ts, cn, plat, ver, guiVer⟩ := update
  cases ts <;> cases cn <;> cases plat <;> cases ver <;> cases guiVer <;> rfl

theorem handshakeAfter_update {line : LogLine} (h : line.isEnd = false) :
    ∃ update : PeerUpdate, ∀ peer, handshakeAfter (some peer) line = some (update.apply peer) := by
  cases line with
  | rejection ts client reason address => exact ⟨⟨none, none, none, none, none⟩, fun peer => rfl⟩
  | info ts address key value =>
      cases key with
      | plat => exact ⟨⟨none, none, some value, none, none⟩, fun peer => rfl⟩
      | ver => exact ⟨⟨none, none, none, some value, none⟩, fun peer => rfl⟩
      | guiVer => exact ⟨⟨none, none, none, none, some value⟩, fun peer => rfl⟩
  | opened ts address cn => exact ⟨⟨some ts, some cn, none, none, none⟩, fun peer => rfl⟩
  | ended ts address cn reason => cases h

theorem collected_update {lines : List LogLine} (h : ∀ line ∈ lines, line.isEnd = false) :
    ∃ update : PeerUpdate, ∀ peer, collected (some peer) lines = some (update.apply peer) := by
  induction lines with
  | nil => exact ⟨⟨none, none, none, none, none⟩, fun peer => rfl⟩
  | cons line rest ih =>
      obtain ⟨first, hfirst⟩ := handshakeAfter_update (h line List.mem_cons_self)
      obtain ⟨later, hlater⟩ := ih fun line hline => h line (List.mem_cons_of_mem _ hline)
      refine ⟨⟨later.ts.or first.ts, later.cn.or first.cn, later.plat.or first.plat,
        later.ver.or first.ver, later.guiVer.or first.guiVer⟩, fun peer => ?_⟩
      rw [collected, List.foldl_cons, hfirst, ← collected, hlater]
      simp only [PeerUpdate.apply, Option.or_assoc, Option.some.injEq, Peer.mk.injEq, and_true]
      cases later.ts <;> rfl

theorem handshakeAfter_none (line : LogLine) (h : line.isEnd = false)
    (ha : line.address? ≠ none) :
    ∃ peer, handshakeAfter none line = handshakeAfter (some peer) line := by
  cases line with
  | rejection ts client reason address => exact absurd rfl ha
  | info ts address key value => exact ⟨Peer.new ts, rfl⟩
  | opened ts address cn => exact ⟨Peer.new ts, rfl⟩
  | ended ts address cn reason => cases h

theorem collected_collected {address : Text} (lines : List LogLine) (peer : Option Peer)
    (h : ∀ line ∈ linesOf address lines, line.isEnd = false) :
    collected (collected peer (linesOf address lines)) (linesOf address lines) =
      collected peer (linesOf address lines) := by
  obtain ⟨update, hupdate⟩ := collected_update h
  cases peer with
  | some peer => rw [hupdate, hupdate, update.apply_apply]
  | none =>
      cases hl : linesOf address lines with
      | nil => rfl
      | cons line rest =>
          have hmem : line ∈ linesOf address lines := by rw [hl]; exact List.mem_cons_self
          have ha : line.address? ≠ none := by
            have hown := (List.mem_filter.mp hmem).2
            rw [of_decide_eq_true hown]
            simp
          obtain ⟨start, hstart⟩ := handshakeAfter_none line (h line hmem) ha
          have hnone : collected none (line :: rest) = collected (some start) (line :: rest) := by
            rw [collected, List.foldl_cons, hstart]
            rfl
          rw [← hl] at hnone ⊢
          rw [hnone, hupdate, hupdate, update.apply_apply]

end Idempotent

end OpenvpnServer.Collector
