import OpenvpnServer.Collector.Describe
import OpenvpnServer.Collector.LogFiles

namespace OpenvpnServer.Collector

open OpenvpnServer.Lib

variable {count : Nat} {file : LogFile}

-- The same rows, positions and pending handshakes. A Python dict is compared
-- without regard to its order.
structure LogState.Same (s t : LogState) : Prop where
  pending : ∀ address, s.pending.get? address = t.pending.get? address
  rows : s.rows = t.rows
  positions : s.positions = t.positions

theorem LogState.Same.refl (s : LogState) : s.Same s := ⟨fun _ => rfl, rfl, rfl⟩

section Positions

variable {maxBytes : Nat} {file : LogFile} {positions positions' : Positions}

def LogFile.Fits (maxBytes : Nat) (positions : Positions) (file : LogFile) : Prop :=
  ∀ data ∈ file.data, data.length ≤ file.position positions data.length + maxBytes

instance : Decidable (file.Fits maxBytes positions) := by
  unfold LogFile.Fits
  infer_instance

theorem whole_congr (h : positions'.get? file.name = positions.get? file.name) :
    file.whole maxBytes positions' = file.whole maxBytes positions := by
  unfold LogFile.whole LogFile.chunk LogFile.position
  rw [h]

theorem whole_eq_nil (h : file.Fits maxBytes positions)
    (hread : positions'.get? file.name = some (file.readTo maxBytes positions)) :
    file.whole maxBytes positions' = [] := by
  cases hd : file.data with
  | none => simp [LogFile.whole, LogFile.chunk, hd]
  | some data =>
      have hfits := h data hd
      let pos := file.position positions data.length
      have hchunk : file.chunk maxBytes positions = data.drop pos := by
        unfold LogFile.chunk
        rw [hd, Option.elim_some, List.take_of_length_le]
        rw [List.length_drop]
        omega
      let whole := (data.drop pos).rdropWhile fun byte => byte ≠ newline
      let rest := (data.drop pos).rtakeWhile fun byte => byte ≠ newline
      have hsplit : whole ++ rest = data.drop pos := List.rdropWhile_append_rtakeWhile
      have hwhole : file.whole maxBytes positions = whole := by
        unfold LogFile.whole
        rw [hchunk]
      have hto : file.readTo maxBytes positions = (file.inode, pos + whole.length) := by
        unfold LogFile.readTo
        rw [hwhole, hd]
        rfl
      have hpos : file.position positions' data.length = pos + whole.length := by
        have hlen := congrArg List.length hsplit
        have hle : pos ≤ data.length := by
          dsimp only [pos, LogFile.position]
          split
          · rename_i hin
            exact hin.2
          · omega
        rw [List.length_append, List.length_drop] at hlen
        unfold LogFile.position
        rw [hread, hto]
        simp only [Option.getD_some, true_and]
        rw [if_pos (by omega)]
      have hrest : data.drop (pos + whole.length) = rest := by
        rw [← List.drop_drop, ← hsplit, List.drop_left]
      unfold LogFile.whole LogFile.chunk
      rw [hd, Option.elim_some, hpos, hrest, List.rdropWhile_eq_nil_iff]
      intro byte hbyte
      exact List.mem_rtakeWhile_imp (p := fun byte => decide (byte ≠ newline))
        (List.mem_of_mem_take hbyte)

end Positions

section Congruence

variable (parse : List UInt8 → List LogLine) (maxBytes now : Nat)

def LogState.left : List LogFile → LogState → Pending
  | [], s => s.pending
  | file :: rest, s =>
      if file.whole maxBytes s.positions = [] then s.left rest
      else (s.readFile parse maxBytes file).left rest

def NoTwins (pending : Pending) : Prop :=
  ∀ a ∈ pending.entries, ∀ b ∈ pending.entries, Twins a b → a = b

instance (pending : Pending) : Decidable (NoTwins pending) := by
  unfold NoTwins
  infer_instance

variable {parse maxBytes now} {s t : LogState}

theorem describe_none (s : LogState) :
    s.describe now none =
      { s with
        pending := (s.pending.entries.foldl (describeOne now) (s.pending, s.rows)).1
        rows := (s.pending.entries.foldl (describeOne now) (s.pending, s.rows)).2 } := by
  unfold LogState.describe
  by_cases he : s.pending.entries = []
  · rw [if_pos he, he]
    rfl
  · rw [if_neg he]
    rfl

theorem readFile_pending (s : LogState) (file : LogFile) :
    (s.readFile parse maxBytes file).pending =
      pendingAfter s.pending (file.lines parse maxBytes s.positions) :=
  foldl_logLine_fst ..

theorem foldl_describeOne_congr (now : Nat) {pending pending' : Pending}
    (h : ∀ address, pending.get? address = pending'.get? address) (items : List (Text × Peer))
    (db : Database) :
    (∀ address, (items.foldl (describeOne now) (pending, db)).1.get? address =
      (items.foldl (describeOne now) (pending', db)).1.get? address) ∧
    (items.foldl (describeOne now) (pending, db)).2 =
      (items.foldl (describeOne now) (pending', db)).2 := by
  induction items generalizing pending pending' db with
  | nil => exact ⟨h, rfl⟩
  | cons item rest ih =>
      rw [List.foldl_cons, List.foldl_cons, describeOne_eq, describeOne_eq]
      refine ih (fun address => ?_) _
      by_cases hd : dropped now db item = true
      · rw [if_pos hd, if_pos hd, Dict.get?_erase, Dict.get?_erase, h]
      · rw [if_neg hd, if_neg hd, h]

theorem LogState.Same.describe (h : s.Same t) (hn : NoTwins s.pending) :
    (s.describe now none).Same (t.describe now none) := by
  have hperm := Dict.perm_entries_of_get? h.pending
  have horder (state : Pending × Database) : s.pending.entries.foldl (describeOne now) state =
      t.pending.entries.foldl (describeOne now) state := by
    refine hperm.foldl_eq' (fun a ha b hb state => ?_) state
    by_cases hab : a = b
    · rw [hab]
    · exact describeOne_comm now state fun htwins => hab (hn a ha b hb htwins)
  have hcongr := foldl_describeOne_congr now h.pending t.pending.entries s.rows
  rw [describe_none, describe_none, horder, ← h.rows]
  exact ⟨hcongr.1, hcongr.2, h.positions⟩

theorem LogState.Same.readFile (h : s.Same t) (file : LogFile) :
    (s.readFile parse maxBytes file).Same (t.readFile parse maxBytes file) := by
  refine ⟨fun address => ?_, ?_, ?_⟩
  · rw [readFile_pending, readFile_pending, get?_pendingAfter, get?_pendingAfter, h.pending,
      h.positions]
  · unfold LogState.readFile
    rw [h.rows, h.positions]
    exact foldl_logLine_snd_of_get? h.pending _ _
  · unfold LogState.readFile
    rw [h.positions]

theorem LogState.Same.readLogs (h : s.Same t) (files : List LogFile)
    (hn : NoTwins (s.left parse maxBytes files)) :
    (s.readLogs parse maxBytes now none files).Same (t.readLogs parse maxBytes now none files) := by
  induction files generalizing s t with
  | nil => exact h.describe hn
  | cons file rest ih =>
      unfold LogState.readLogs
      rw [← h.positions]
      unfold LogState.left at hn
      by_cases hw : file.whole maxBytes s.positions = []
      · rw [if_pos hw] at hn
        rw [if_pos hw, if_pos hw]
        exact ih h hn
      · rw [if_neg hw] at hn
        rw [if_neg hw, if_neg hw]
        exact ih (h.readFile file) hn

end Congruence

section Reread

def beforeEnd (lines : List LogLine) : List LogLine := lines.takeWhile fun line => !line.isEnd

-- The first end line of each address finds the same handshake, whether its lines
-- before it are added to what was pending before the lines or after them.
def SameHandshakes (pending : Pending) (reached : List LogLine) : Prop :=
  ∀ address ∈ reached.filterMap LogLine.address?,
    ((linesOf address reached).find? LogLine.isEnd).any LogLine.endsSession = true →
      collected (pending.get? address) (beforeEnd (linesOf address reached)) =
        collected ((pendingAfter pending reached).get? address)
          (beforeEnd (linesOf address reached))

instance (pending : Pending) (reached : List LogLine) :
    Decidable (SameHandshakes pending reached) := by
  unfold SameHandshakes
  infer_instance

-- No address with an end line among the lines is pending again after them.
def NoReturn (pending : Pending) (reached : List LogLine) : Prop :=
  ∀ line ∈ reached, line.isEnd = true → ∀ address ∈ line.address?,
    (pendingAfter pending reached).get? address = none

instance (pending : Pending) (reached : List LogLine) : Decidable (NoReturn pending reached) := by
  unfold NoReturn
  infer_instance

variable {pending : Pending} {reached : List LogLine}

theorem get?_reread (pending : Pending) (reached : List LogLine) (address : Text) :
    (pendingAfter (pendingAfter pending reached) reached).get? address =
      (pendingAfter pending reached).get? address := by
  rw [get?_pendingAfter, get?_pendingAfter]
  by_cases h : ∃ line ∈ linesOf address reached, line.isEnd = true
  · exact collected_of_end h _ _
  · refine collected_collected reached _ fun line hline => ?_
    rw [← Bool.not_eq_true]
    exact fun hend => h ⟨line, hline, hend⟩

-- An end line in the middle is either the first of its address, whose handshake
-- the condition is about, or there is one before it.
theorem SameHandshakes.get? (h : SameHandshakes pending reached) {done rest : List LogLine}
    {line : LogLine} (he : reached = done ++ line :: rest) (hends : line.endsSession = true)
    {address : Text} (ha : line.address? = some address) :
    (pendingAfter pending done).get? address =
      (pendingAfter (pendingAfter pending reached) done).get? address := by
  rw [get?_pendingAfter, get?_pendingAfter]
  by_cases hearlier : ∃ earlier ∈ linesOf address done, earlier.isEnd = true
  · exact collected_of_end hearlier _ _
  · have hnone : ∀ earlier ∈ linesOf address done, earlier.isEnd = false := by
      intro earlier hmem
      rw [← Bool.not_eq_true]
      exact fun hend => hearlier ⟨earlier, hmem, hend⟩
    have hend : line.isEnd = true := by
      cases line with
      | ended ts address cn reason => rfl
      | _ => cases hends
    have hlines : linesOf address reached = linesOf address done ++ line :: linesOf address rest := by
      rw [he, linesOf_append]
      congr 1
      rw [linesOf, List.filter_cons_of_pos (by simpa using ha)]
      rfl
    have hbefore : beforeEnd (linesOf address reached) = linesOf address done := by
      rw [hlines, beforeEnd, List.takeWhile_append_of_pos (by simpa using hnone)]
      simp [hend]
    have hfirst : (linesOf address reached).find? LogLine.isEnd = some line := by
      rw [hlines, List.find?_append, List.find?_eq_none.mpr (by simpa using hnone),
        Option.none_or, List.find?_cons_of_pos hend]
    have hmem : address ∈ reached.filterMap LogLine.address? := by
      rw [he]
      simp [ha]
    have hsame := h address hmem (by rw [hfirst]; exact hends)
    rwa [hbefore] at hsame

theorem SameHandshakes.rows (h : SameHandshakes pending reached) (db : Database) :
    (reached.foldl logLine (pendingAfter pending reached, db)).2 =
      (reached.foldl logLine (pending, db)).2 := by
  refine (foldl_logLine_snd_congr (fun done line rest he hends address ha => ?_) db).symm
  exact h.get? he hends ha

theorem prefix_keys_pendingAfter {start : List Text} {lines : List LogLine}
    (hkept : ∀ line ∈ lines, line.isEnd = true → ∀ address ∈ line.address?, address ∉ start)
    (h : start <+: pending.keys) : start <+: (pendingAfter pending lines).keys := by
  induction lines generalizing pending with
  | nil => exact h
  | cons line rest ih =>
      refine ih (fun later hlater => hkept later (List.mem_cons_of_mem _ hlater)) ?_
      obtain ⟨extra, hextra⟩ := h
      unfold pendingLine
      cases ha : line.address? with
      | none => exact ⟨extra, hextra⟩
      | some address =>
          simp only
          cases hp : handshakeAfter (pending.get? address) line with
          | some peer =>
              by_cases hmem : address ∈ pending.keys
              · exact ⟨extra, by rw [Dict.keys_set_of_mem _ _ hmem, hextra]⟩
              · exact ⟨extra ++ [address],
                  by rw [Dict.keys_set_of_not_mem _ _ hmem, ← hextra, List.append_assoc]⟩
          | none =>
              have hend : line.isEnd = true := by
                cases line with
                | rejection ts client reason address => cases ha
                | info ts address key value => cases hp
                | opened ts address cn => cases hp
                | ended ts address cn reason => rfl
              have hout := hkept line List.mem_cons_self hend address ha
              refine ⟨extra.filter fun x => x ≠ address, ?_⟩
              rw [Dict.keys_erase, ← hextra, List.filter_append]
              congr 1
              refine (List.filter_eq_self.mpr fun x hx => ?_).symm
              have hne : x ≠ address := fun he => hout (he ▸ hx)
              simpa using hne

theorem NoReturn.reread (h : NoReturn pending reached) :
    pendingAfter (pendingAfter pending reached) reached = pendingAfter pending reached := by
  have hget := get?_reread pending reached
  obtain ⟨extra, hextra⟩ : (pendingAfter pending reached).keys <+:
      (pendingAfter (pendingAfter pending reached) reached).keys := by
    refine prefix_keys_pendingAfter (fun line hline hend address ha => ?_) List.prefix_rfl
    rw [← Dict.get?_eq_none_iff]
    exact h line hline hend address ha
  have hnil : extra = [] := by
    cases extra with
    | nil => rfl
    | cons x rest =>
        have hnodup := (pendingAfter (pendingAfter pending reached) reached).nodup
        change List.Nodup (Dict.keys _) at hnodup
        rw [← hextra, List.nodup_append] at hnodup
        have hmem : x ∈ (pendingAfter (pendingAfter pending reached) reached).keys := by
          rw [← hextra]
          simp
        rw [Dict.mem_keys_iff, hget, ← Dict.mem_keys_iff] at hmem
        exact absurd rfl (hnodup.2.2 x hmem x List.mem_cons_self)
  rw [hnil, List.append_nil] at hextra
  exact Dict.eq_of_keys_of_get? hextra.symm hget

theorem SameHandshakes.again (h : SameHandshakes pending reached) (rest : List LogLine)
    (db : Database) :
    ((reached ++ rest).foldl logLine (pending, db)).2 =
      ((reached ++ rest).foldl logLine (pendingAfter pending reached, db)).2 := by
  rw [List.foldl_append, List.foldl_append]
  have hfirst := foldl_logLine_fst reached pending db
  have hsecond := foldl_logLine_fst reached (pendingAfter pending reached) db
  have hrows := h.rows db
  generalize reached.foldl logLine (pending, db) = first at hfirst hrows
  generalize reached.foldl logLine (pendingAfter pending reached, db) = second at hsecond hrows
  obtain ⟨pending₁, db₁⟩ := first
  obtain ⟨pending₂, db₂⟩ := second
  simp only at hfirst hsecond hrows
  subst hfirst hsecond hrows
  exact foldl_logLine_snd_of_get? (fun address => (get?_reread pending reached address).symm) _ _

theorem get?_again (pending : Pending) (reached rest : List LogLine) (address : Text) :
    (pendingAfter pending (reached ++ rest)).get? address =
      (pendingAfter (pendingAfter pending reached) (reached ++ rest)).get? address := by
  rw [pendingAfter_append, pendingAfter_append, get?_pendingAfter _ rest,
    get?_pendingAfter _ rest, get?_reread]

end Reread

section FailedFile

variable {parse : List UInt8 → List LogLine} {maxBytes : Nat} {s : LogState} {file : LogFile}
  {count : Nat}

theorem failFile_eq (s : LogState) (file : LogFile) (count : Nat) :
    s.failFile parse maxBytes file count = { s with
      pending := pendingAfter s.pending ((file.lines parse maxBytes s.positions).take count) } := by
  rw [← foldl_logLine_fst _ _ s.rows]
  rfl

theorem exists_reached (lines : List LogLine) (count : Nat) :
    ∃ rest, lines = lines.take count ++ rest :=
  ⟨lines.drop count, (List.take_append_drop count lines).symm⟩

theorem SameHandshakes.readFile
    (h : SameHandshakes s.pending ((file.lines parse maxBytes s.positions).take count)) :
    (s.readFile parse maxBytes file).Same
      ((s.failFile parse maxBytes file count).readFile parse maxBytes file) := by
  obtain ⟨rest, hrest⟩ := exists_reached (file.lines parse maxBytes s.positions) count
  rw [failFile_eq]
  refine ⟨fun address => ?_, ?_, rfl⟩
  · rw [readFile_pending, readFile_pending]
    simp only
    generalize (file.lines parse maxBytes s.positions).take count = reached at hrest
    rw [hrest]
    exact get?_again s.pending reached rest address
  · unfold LogState.readFile
    simp only
    generalize (file.lines parse maxBytes s.positions).take count = reached at h hrest
    rw [hrest]
    exact h.again rest s.rows

theorem NoReturn.readFile_pending
    (h : NoReturn s.pending ((file.lines parse maxBytes s.positions).take count)) :
    ((s.failFile parse maxBytes file count).readFile parse maxBytes file).pending =
      (s.readFile parse maxBytes file).pending := by
  obtain ⟨rest, hrest⟩ := exists_reached (file.lines parse maxBytes s.positions) count
  rw [failFile_eq, Collector.readFile_pending, Collector.readFile_pending]
  simp only
  generalize (file.lines parse maxBytes s.positions).take count = reached at h hrest
  rw [hrest, pendingAfter_append, pendingAfter_append, h.reread]

end FailedFile

section FailedDescribe

def Described (db : Database) (item : Text × Peer) : Prop :=
  ∀ found ∈ describedRow db item, Session.withDevice item.1 item.2 found.2 = found.2

instance (db : Database) (item : Text × Peer) : Decidable (Described db item) := by
  unfold Described
  infer_instance

variable {db : Database} {now later : Nat}

theorem describedRows_of_described {item : Text × Peer} (h : Described db item) :
    describedRows db item = db := by
  unfold describedRows
  cases hf : describedRow db item with
  | none => rfl
  | some found =>
      obtain ⟨id, row⟩ := found
      obtain ⟨cn, _, hlatest⟩ := Option.bind_eq_some_iff.mp hf
      have hrow := (latestSession_spec hlatest).1
      simp only [Database.updateSession, Dict.modify_eq_self _ hrow (h (id, row) hf)]

def withoutDropped (now : Nat) (db : Database) (items : List (Text × Peer)) (pending : Pending) :
    Pending :=
  pending.filter fun address _ => address ∉ (items.filter (dropped now db)).map Prod.fst

theorem foldl_describeOne_of_described {items : List (Text × Peer)}
    (h : ∀ item ∈ items, Described db item) (pending : Pending) :
    items.foldl (describeOne now) (pending, db) = (withoutDropped now db items pending, db) := by
  induction items generalizing pending with
  | nil => simp [withoutDropped, Dict.filter]
  | cons item rest ih =>
      have hrest := ih fun other hother => h other (List.mem_cons_of_mem _ hother)
      rw [List.foldl_cons, describeOne_eq, describedRows_of_described (h item List.mem_cons_self),
        hrest]
      congr 1
      by_cases hd : dropped now db item = true
      · rw [if_pos hd]
        simp only [withoutDropped, Dict.filter, Dict.erase, Dict.mk.injEq, List.filter_filter,
          List.filter_cons_of_pos hd, List.map_cons, List.mem_cons]
        refine List.filter_congr fun entry _ => ?_
        by_cases he : entry.1 = item.1 <;> simp [he]
      · rw [if_neg hd, withoutDropped, withoutDropped, List.filter_cons_of_neg hd]

theorem dropped_later (hle : now ≤ later) {item : Text × Peer} (h : dropped now db item = true) :
    dropped later db item = true := by
  unfold dropped at h ⊢
  rw [Bool.or_eq_true, decide_eq_true_eq] at h ⊢
  exact h.imp id fun hold => Nat.lt_of_lt_of_le hold hle

theorem retry_describe {pending : Pending} (hle : now ≤ later)
    (h : ∀ item ∈ pending.entries.take count, Described db item) :
    (withoutDropped now db (pending.entries.take count) pending).entries.foldl (describeOne later)
        (withoutDropped now db (pending.entries.take count) pending, db) =
      pending.entries.foldl (describeOne later) (pending, db) := by
  have hnodup := pending.nodup
  have hsplit := List.take_append_drop count pending.entries
  generalize pending.entries.take count = handled at h hsplit
  generalize pending.entries.drop count = rest at hsplit
  rw [← hsplit, List.map_append, List.nodup_append] at hnodup
  obtain ⟨hhandled, _, hdisjoint⟩ := hnodup
  have hentries : (withoutDropped now db handled pending).entries =
      handled.filter (fun item => !dropped now db item) ++ rest := by
    simp only [withoutDropped, Dict.filter]
    rw [← hsplit, List.filter_append]
    congr 1
    · refine List.filter_congr fun item hitem => ?_
      have hown : item.1 ∈ (handled.filter (dropped now db)).map Prod.fst ↔
          dropped now db item = true := by
        constructor
        · intro hmem
          obtain ⟨other, hother, he⟩ := List.mem_map.mp hmem
          rw [List.mem_filter] at hother
          rw [← List.inj_on_of_nodup_map hhandled hother.1 hitem he]
          exact hother.2
        · exact fun hd => List.mem_map_of_mem (List.mem_filter.mpr ⟨hitem, hd⟩)
      cases hd : dropped now db item <;> simp [hown, hd]
    · rw [List.filter_eq_self]
      intro item hitem
      rw [decide_eq_true_eq]
      intro hmem
      obtain ⟨other, hother, he⟩ := List.mem_map.mp hmem
      exact hdisjoint _ (List.mem_map_of_mem (List.mem_filter.mp hother).1) _
        (List.mem_map_of_mem hitem) he
  have hleft : withoutDropped later db (handled.filter fun item => !dropped now db item)
      (withoutDropped now db handled pending) = withoutDropped later db handled pending := by
    simp only [withoutDropped, Dict.filter, Dict.mk.injEq, List.filter_filter]
    refine List.filter_congr fun entry _ => ?_
    have hboth : entry.1 ∈ (handled.filter (dropped later db)).map Prod.fst ↔
        entry.1 ∈ (handled.filter fun item =>
          dropped later db item && !dropped now db item).map Prod.fst ∨
        entry.1 ∈ (handled.filter (dropped now db)).map Prod.fst := by
      simp only [List.mem_map, List.mem_filter, Bool.and_eq_true]
      constructor
      · rintro ⟨item, ⟨hitem, hd⟩, he⟩
        by_cases hnow : dropped now db item = true
        · exact Or.inr ⟨item, ⟨hitem, hnow⟩, he⟩
        · exact Or.inl ⟨item, ⟨hitem, hd, by simpa using hnow⟩, he⟩
      · rintro (⟨item, ⟨hitem, hd, _⟩, he⟩ | ⟨item, ⟨hitem, hd⟩, he⟩)
        · exact ⟨item, ⟨hitem, hd⟩, he⟩
        · exact ⟨item, ⟨hitem, dropped_later hle hd⟩, he⟩
    rw [Bool.eq_iff_iff, Bool.and_eq_true, decide_eq_true_eq, decide_eq_true_eq,
      decide_eq_true_eq, hboth, not_or]
  rw [hentries, List.foldl_append,
    foldl_describeOne_of_described (fun item hitem => h item (List.mem_filter.mp hitem).1), hleft]
  conv_rhs => rw [← hsplit, List.foldl_append, foldl_describeOne_of_described h]

end FailedDescribe

section Retry

variable (parse : List UInt8 → List LogLine) (maxBytes : Nat)

-- When an attempt that is rolled back can be made up for. A file's transaction:
-- the lines it got to find the same handshakes again, and leave them in the same
-- order or no two of one row. `_describe_sessions`: the handshakes it got to had
-- nothing to tell. Files read before that: there was no more in them.
def LogState.Recoverable : Option Fault → List LogFile → LogState → Prop
  | fault, [], s =>
      match fault with
      | some (.describing count) =>
          s.pending.entries ≠ [] ∧ ∀ item ∈ s.pending.entries.take count, Described s.rows item
      | _ => False
  | fault, file :: rest, s =>
      if file.whole maxBytes s.positions = [] then s.Recoverable (fault.bind Fault.next) rest
      else
        match fault with
        | some (.reading 0 count) =>
            let reached := (file.lines parse maxBytes s.positions).take count
            SameHandshakes s.pending reached ∧
              (NoReturn s.pending reached ∨ NoTwins (s.left parse maxBytes (file :: rest)))
        | _ =>
            file.Fits maxBytes s.positions ∧
              (s.readFile parse maxBytes file).Recoverable (fault.bind Fault.next) rest

variable {parse maxBytes} {now later : Nat} {s : LogState} {fault : Option Fault}
  {files : List LogFile}

theorem readLogs_positions {name : Text} (h : name ∉ files.map LogFile.name) :
    (s.readLogs parse maxBytes now fault files).positions.get? name = s.positions.get? name := by
  induction files generalizing s fault with
  | nil =>
      unfold LogState.readLogs LogState.describe
      split <;> rfl
  | cons file rest ih =>
      rw [List.map_cons, List.mem_cons, not_or] at h
      unfold LogState.readLogs
      split
      · exact ih h.2
      · split
        · rfl
        · rw [ih h.2]
          exact Dict.get?_set_ne _ _ h.1

theorem readLogs_skip (h : file.whole maxBytes s.positions = []) :
    s.readLogs parse maxBytes now fault (file :: files) =
      s.readLogs parse maxBytes now (fault.bind Fault.next) files := by
  conv_lhs => unfold LogState.readLogs
  rw [if_pos h]

theorem readLogs_failed (h : file.whole maxBytes s.positions ≠ []) :
    s.readLogs parse maxBytes now (some (.reading 0 count)) (file :: files) =
      s.failFile parse maxBytes file count := by
  conv_lhs => unfold LogState.readLogs
  rw [if_neg h]
  rfl

theorem readLogs_read (h : file.whole maxBytes s.positions ≠ [])
    (hfault : ∀ count, fault ≠ some (.reading 0 count)) :
    s.readLogs parse maxBytes now fault (file :: files) =
      (s.readFile parse maxBytes file).readLogs parse maxBytes now (fault.bind Fault.next)
        files := by
  conv_lhs => unfold LogState.readLogs
  rw [if_neg h]
  split
  · rename_i count
    exact absurd rfl (hfault count)
  · rfl

theorem retry_after_describe
    (h : ∀ item ∈ s.pending.entries.take count, Described s.rows item)
    (hpending : s.pending.entries ≠ []) (hle : now ≤ later) :
    (s.describe now (some (.describing count))).describe later none = s.describe later none := by
  have hfailed : s.describe now (some (.describing count)) =
      { s with pending := withoutDropped now s.rows (s.pending.entries.take count) s.pending } := by
    unfold LogState.describe
    rw [if_neg hpending]
    simp only [Option.bind_some, Fault.stops, describeSessions, foldl_describeOne_of_described h]
  rw [hfailed, describe_none, describe_none]
  simp only [retry_describe hle h]

theorem retry_after_file
    (hw : file.whole maxBytes s.positions ≠ [])
    (hsame : SameHandshakes s.pending ((file.lines parse maxBytes s.positions).take count))
    (horder : NoReturn s.pending ((file.lines parse maxBytes s.positions).take count) ∨
      NoTwins (s.left parse maxBytes (file :: files))) :
    (s.readLogs parse maxBytes later none (file :: files)).Same
      ((s.failFile parse maxBytes file count).readLogs parse maxBytes later none
        (file :: files)) := by
  have hread := hsame.readFile
  have hw' : file.whole maxBytes (s.failFile parse maxBytes file count).positions ≠ [] := hw
  rw [readLogs_read hw (by simp), readLogs_read hw' (by simp)]
  rcases horder with hreturn | htwins
  · have heq : (s.failFile parse maxBytes file count).readFile parse maxBytes file =
        s.readFile parse maxBytes file := by
      have hp := hreturn.readFile_pending
      have hr := hread.rows
      have hpos := hread.positions
      generalize (s.failFile parse maxBytes file count).readFile parse maxBytes file = again at *
      generalize s.readFile parse maxBytes file = once at *
      cases again
      cases once
      simp only at hp hr hpos
      rw [hp, hr, hpos]
    rw [heq]
    exact LogState.Same.refl _
  · unfold LogState.left at htwins
    rw [if_neg hw] at htwins
    exact hread.readLogs files htwins

end Retry

section Sample

def sampleParse (bytes : List UInt8) : List LogLine :=
  (bytes.filter fun byte => byte ≠ newline).map fun byte =>
    if byte = 1 then .info 100 "udp4:1.2.3.4:5".toList .plat "linux".toList
    else if byte = 2 then .opened 100 "udp4:1.2.3.4:5".toList "alice".toList
    else .ended 103 "udp4:1.2.3.4:5".toList (some "alice".toList) "client exit".toList

def sampleLog (bytes : List UInt8) : List LogFile := [⟨"openvpn.log".toList, 7, some bytes⟩]

def sampleStart : LogState := ⟨.empty, .empty, .empty⟩

def handshakeRead : LogState :=
  sampleStart.readLogs sampleParse 4194304 101 none (sampleLog [1, 10, 2, 10])

end Sample

end OpenvpnServer.Collector
