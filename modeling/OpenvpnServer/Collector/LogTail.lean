import OpenvpnServer.Collector.Retry
import OpenvpnServer.Lib.Decode
import OpenvpnServer.Lib.Run

namespace OpenvpnServer.Collector

open OpenvpnServer.Lib

section Tail

-- One log file, the settings, and the lines that committed calls have handed to the
-- parsers since the file was last replaced or cut short.
structure LogTail where
  name : Text
  inode : Nat
  data : List UInt8
  positions : Positions
  handed : List Text
  deriving DecidableEq

namespace LogTail

def fresh (name : Text) (inode : Nat) (data : List UInt8) : LogTail :=
  ⟨name, inode, data, .empty, []⟩

def file (t : LogTail) : LogFile := ⟨t.name, t.inode, some t.data⟩

def stored (t : LogTail) : Nat × Nat := (t.positions.get? t.name).getD (0, 0)

def position (t : LogTail) : Nat := t.file.position t.positions t.data.length

def Current (t : LogTail) : Prop := t.stored.1 = t.inode ∧ t.stored.2 ≤ t.data.length

instance (t : LogTail) : Decidable t.Current := inferInstanceAs (Decidable (_ ∧ _))

inductive Step where
  | grow (more : List UInt8)
  | replace (inode : Nat) (data : List UInt8)
  | truncate (data : List UInt8)
  | read (maxBytes : Nat) (committed : Bool)
  deriving DecidableEq

-- The part of `read_logs` for this file.
def readCall (t : LogTail) (maxBytes : Nat) (committed : Bool) : LogTail :=
  let whole := t.file.whole maxBytes t.positions
  if whole = [] ∨ committed = false then t
  else
    { t with
      positions := t.positions.set t.name (t.file.readTo maxBytes t.positions)
      handed := t.handed ++ decodedLines whole }

def step (t : LogTail) : Step → Option LogTail
  | .grow more => some { t with data := t.data ++ more }
  | .replace inode data => some { t with inode, data, handed := [] }
  | .truncate data => some { t with data, handed := [] }
  | .read maxBytes committed => some (t.readCall maxBytes committed)

def LinesFit (maxBytes : Nat) (data : List UInt8) : Prop :=
  ∀ before line after, data = before ++ line ++ newline :: after →
    before = [] ∨ before.getLast? = some newline → newline ∉ line → line.length + 1 ≤ maxBytes

-- A file is replaced by one of another inode than the stored one. If it is cut short
-- below the stored offset, a call sees that before it has grown past the offset.
def Allowed (t : LogTail) : Step → Prop
  | .grow more => t.stored.1 = t.inode → t.data.length < t.stored.2 →
      t.data.length + more.length < t.stored.2
  | .replace inode _ => t.stored.1 ≠ inode
  | .truncate data => t.stored.1 = t.inode → data.length < t.stored.2
  | .read maxBytes _ => LinesFit maxBytes t.data

def Growing (t : LogTail) : Step → Prop
  | .grow _ => True
  | .replace _ _ => False
  | .truncate _ => False
  | .read maxBytes _ => LinesFit maxBytes t.data

end LogTail

end Tail

section Whole

variable {t : LogTail} {maxBytes : Nat}

namespace LogTail

theorem position_eq (t : LogTail) : t.position = if t.Current then t.stored.2 else 0 := rfl

theorem position_le (t : LogTail) : t.position ≤ t.data.length := by
  rw [position_eq]
  split
  · exact (‹t.Current›).2
  · exact Nat.zero_le _

theorem whole_eq (t : LogTail) (maxBytes : Nat) : t.file.whole maxBytes t.positions =
    ((t.data.drop t.position).take maxBytes).rdropWhile fun byte => byte ≠ newline := rfl

theorem drop_position (t : LogTail) (maxBytes : Nat) :
    ∃ rest, t.data.drop t.position = t.file.whole maxBytes t.positions ++ rest := by
  obtain ⟨more, hmore⟩ := List.rdropWhile_prefix (fun byte : UInt8 => decide (byte ≠ newline))
    (l := (t.data.drop t.position).take maxBytes)
  refine ⟨more ++ (t.data.drop t.position).drop maxBytes, ?_⟩
  rw [whole_eq, ← List.append_assoc, hmore, List.take_append_drop]

theorem getLast?_whole (h : t.file.whole maxBytes t.positions ≠ []) :
    (t.file.whole maxBytes t.positions).getLast? = some newline := by
  rw [whole_eq] at h ⊢
  have hlast := List.rdropWhile_last_not _ _ h
  rw [List.getLast?_eq_getLast_of_ne_nil h]
  simpa using hlast

theorem take_readTo (t : LogTail) (maxBytes : Nat) :
    t.data.take (t.position + (t.file.whole maxBytes t.positions).length) =
      t.data.take t.position ++ t.file.whole maxBytes t.positions := by
  obtain ⟨rest, hrest⟩ := t.drop_position maxBytes
  rw [List.take_add, hrest, List.take_left]

theorem readTo_le (t : LogTail) (maxBytes : Nat) :
    t.position + (t.file.whole maxBytes t.positions).length ≤ t.data.length := by
  obtain ⟨rest, hrest⟩ := t.drop_position maxBytes
  have hlen := congrArg List.length hrest
  have hpos := t.position_le
  simp only [List.length_drop, List.length_append] at hlen
  omega

def AtLine (t : LogTail) : Prop :=
  t.data.take t.position = [] ∨ (t.data.take t.position).getLast? = some newline

-- The next line fits, so its newline is among what is read.
theorem whole_ne_nil (hstart : t.AtLine) (hfit : LinesFit maxBytes t.data)
    (hpending : newline ∈ t.data.drop t.position) :
    t.file.whole maxBytes t.positions ≠ [] := by
  obtain ⟨line, after, hsplit, hline⟩ := List.eq_append_cons_of_mem hpending
  have hdata : t.data = t.data.take t.position ++ line ++ newline :: after := by
    rw [List.append_assoc, ← hsplit, List.take_append_drop]
  have hlen := hfit _ line after hdata hstart hline
  have hread : newline ∈ (t.data.drop t.position).take maxBytes := by
    obtain ⟨left, hleft⟩ : ∃ left, maxBytes - line.length = left + 1 :=
      ⟨maxBytes - line.length - 1, by omega⟩
    rw [hsplit, List.take_append, hleft, List.take_succ_cons]
    exact List.mem_append_right _ List.mem_cons_self
  rw [whole_eq]
  intro hnil
  have hall := List.rdropWhile_eq_nil_iff.mp hnil newline hread
  simp at hall

end LogTail

end Whole

section Steps

variable {t t' : LogTail} {maxBytes : Nat}

namespace LogTail

theorem readCall_cases (t : LogTail) (maxBytes : Nat) (committed : Bool) :
    t.readCall maxBytes committed = t ∨
      t.file.whole maxBytes t.positions ≠ [] ∧ committed = true ∧
        t.readCall maxBytes committed =
          { t with
            positions := t.positions.set t.name (t.file.readTo maxBytes t.positions)
            handed := t.handed ++ decodedLines (t.file.whole maxBytes t.positions) } := by
  by_cases h : t.file.whole maxBytes t.positions = [] ∨ committed = false
  · exact .inl (if_pos h)
  · have hboth := not_or.mp h
    exact .inr ⟨hboth.1, by simpa using hboth.2, if_neg h⟩

theorem get?_readCall (h : t.file.whole maxBytes t.positions ≠ []) :
    (t.readCall maxBytes true).positions.get? t.name =
      some (t.file.readTo maxBytes t.positions) := by
  have hcall : ¬(t.file.whole maxBytes t.positions = [] ∨ true = false) := by simp [h]
  rw [readCall, if_neg hcall]
  exact Dict.get?_set_self _ _ _

@[simp] theorem readCall_name (t : LogTail) (maxBytes : Nat) (committed : Bool) :
    (t.readCall maxBytes committed).name = t.name := by
  obtain heq | ⟨_, _, heq⟩ := t.readCall_cases maxBytes committed
  all_goals rw [heq]

theorem stored_readCall (h : t.file.whole maxBytes t.positions ≠ []) :
    (t.readCall maxBytes true).stored =
      (t.inode, t.position + (t.file.whole maxBytes t.positions).length) := by
  rw [stored, readCall_name, get?_readCall h]
  rfl

theorem position_of_stored {offset : Nat} (h : t.stored = (t.inode, offset))
    (hle : offset ≤ t.data.length) : t.Current ∧ t.position = offset := by
  have hcurrent : t.Current := by
    rw [Current, h]
    exact ⟨rfl, hle⟩
  rw [position_eq, if_pos hcurrent, h]
  exact ⟨hcurrent, rfl⟩

-- All lines up to the position, each once, and no part of a line.
structure Sound (t : LogTail) : Prop where
  handed : t.handed = decodedLines (t.data.take t.position)
  atLine : t.AtLine

theorem sound_of_position_zero (hpos : t.position = 0) (hhanded : t.handed = []) : t.Sound := by
  refine ⟨?_, .inl ?_⟩
  · rw [hpos, hhanded]
    rfl
  · rw [hpos, List.take_zero]

theorem Sound.readCall (h : t.Sound) (maxBytes : Nat) (committed : Bool) :
    (t.readCall maxBytes committed).Sound := by
  obtain heq | ⟨hwhole, rfl, heq⟩ := t.readCall_cases maxBytes committed
  · rw [heq]
    exact h
  · have hstored := stored_readCall hwhole
    rw [heq] at hstored ⊢
    have hpos := (position_of_stored hstored (t.readTo_le maxBytes)).2
    have htake := t.take_readTo maxBytes
    refine ⟨?_, .inr ?_⟩
    · rw [hpos, htake, decodedLines_append h.atLine, ← h.handed]
    · rw [hpos, htake, List.getLast?_append, getLast?_whole hwhole]
      rfl

-- A file that is not the one read stays so until a call sees it, so no growth moves
-- the position.
theorem position_grow {more : List UInt8} (h : t.Allowed (.grow more)) :
    ({ t with data := t.data ++ more } : LogTail).position = t.position := by
  by_cases hcurrent : t.Current
  · have hlen : t.stored.2 ≤ (t.data ++ more).length := by
      rw [List.length_append]
      exact Nat.le_add_right_of_le hcurrent.2
    have hgrown : ({ t with data := t.data ++ more } : LogTail).Current := ⟨hcurrent.1, hlen⟩
    rw [position_eq, position_eq, if_pos hcurrent, if_pos hgrown]
    rfl
  · have hgrown : ¬({ t with data := t.data ++ more } : LogTail).Current := by
      intro hgrown
      have hinode : t.stored.1 = t.inode := hgrown.1
      have hlen : t.stored.2 ≤ (t.data ++ more).length := hgrown.2
      rw [List.length_append] at hlen
      have hshort : t.data.length < t.stored.2 :=
        Nat.lt_of_not_le fun hle => hcurrent ⟨hinode, hle⟩
      have hallowed : t.data.length + more.length < t.stored.2 := h hinode hshort
      omega
    rw [position_eq, position_eq, if_neg hcurrent, if_neg hgrown]

theorem Sound.grow {more : List UInt8} (h : t.Sound) (ha : t.Allowed (.grow more)) :
    ({ t with data := t.data ++ more } : LogTail).Sound := by
  have hpos := position_grow ha
  have htake : (t.data ++ more).take t.position = t.data.take t.position :=
    List.take_append_of_le_length t.position_le
  refine ⟨?_, ?_⟩
  · rw [hpos, htake, ← h.handed]
  · rw [AtLine, hpos, htake]
    exact h.atLine

theorem position_of_not_current (h : ¬t.Current) : t.position = 0 := by
  rw [position_eq, if_neg h]

theorem Sound.step (h : t.Sound) {label : Step} (ha : t.Allowed label)
    (hs : t.step label = some t') : t'.Sound := by
  cases label with
  | grow more =>
      cases hs
      exact h.grow ha
  | replace inode data =>
      cases hs
      refine sound_of_position_zero (position_of_not_current fun hc => ?_) rfl
      exact ha hc.1
  | truncate data =>
      cases hs
      refine sound_of_position_zero (position_of_not_current fun hc => ?_) rfl
      exact Nat.not_le_of_lt (ha hc.1) hc.2
  | read maxBytes committed =>
      cases hs
      exact h.readCall maxBytes committed

theorem position_growing_step (h : t.position = t.stored.2) {label : Step}
    (ha : t.Growing label) (hs : t.step label = some t') :
    t.Allowed label ∧ t'.position = t'.stored.2 := by
  have hle := t.position_le
  cases label with
  | grow more =>
      cases hs
      have hallowed : t.Allowed (.grow more) := by
        intro _ hshort
        omega
      exact ⟨hallowed, (position_grow hallowed).trans h⟩
  | replace inode data => exact ha.elim
  | truncate data => exact ha.elim
  | read maxBytes committed =>
      cases hs
      refine ⟨ha, ?_⟩
      obtain heq | ⟨hwhole, rfl, heq⟩ := t.readCall_cases maxBytes committed
      · rw [heq]
        exact h
      · have hstored := stored_readCall hwhole
        rw [heq] at hstored ⊢
        rw [(position_of_stored hstored (t.readTo_le maxBytes)).2, hstored]

theorem sound_fresh (name : Text) (inode : Nat) (data : List UInt8) :
    (fresh name inode data).Sound ∧
      (fresh name inode data).position = (fresh name inode data).stored.2 := by
  have hpos : (fresh name inode data).position = 0 := by
    rw [position_eq]
    split <;> rfl
  exact ⟨sound_of_position_zero hpos rfl, hpos⟩

end LogTail

end Steps

section Lines

namespace LogTail

theorem AtLine.newline_before {t : LogTail} (h : t.AtLine) :
    t.position = 0 ∨ t.data[t.position - 1]? = some newline := by
  by_cases hpos : t.position = 0
  · exact .inl hpos
  · right
    have hle := t.position_le
    have hlen : (t.data.take t.position).length = t.position := by
      rw [List.length_take]
      omega
    rcases h with hnil | hlast
    · rw [hnil] at hlen
      exact absurd hlen.symm hpos
    · rw [List.getLast?_eq_getElem?, hlen, List.getElem?_take_of_lt (by omega)] at hlast
      exact hlast

theorem Sound.advance {t : LogTail} (h : t.Sound) {maxBytes : Nat}
    (hfit : LinesFit maxBytes t.data) (hpending : newline ∈ t.data.drop t.position) :
    t.position < (t.readCall maxBytes true).stored.2 := by
  have hwhole := whole_ne_nil h.atLine hfit hpending
  have hlen := List.length_pos_of_ne_nil hwhole
  rw [stored_readCall hwhole]
  exact Nat.lt_add_of_pos_right hlen

theorem linesFit_of_length_le {maxBytes : Nat} {data : List UInt8} (h : data.length ≤ maxBytes) :
    LinesFit maxBytes data := by
  intro before line after hdata _ _
  rw [hdata] at h
  simp only [List.length_append, List.length_cons] at h
  omega

def cutCharacter : List Step :=
  [.grow [0x61, 0x0D, 10, 0xC3], .read 100 true, .grow [0xA9, 10], .read 100 false,
    .read 6 true]

def cutFile : List Step := [.grow [0x61, 10], .read 100 true, .truncate [], .grow [0x62]]

end LogTail

end Lines

section ReadLogs

variable {parse : List UInt8 → List LogLine} {maxBytes now : Nat} {s : LogState}
  {fault : Option Fault} {files : List LogFile} {t : LogTail}

namespace LogTail

theorem readCall_of_nil (h : t.file.whole maxBytes t.positions = []) (committed : Bool) :
    t.readCall maxBytes committed = t := by
  unfold readCall
  exact if_pos (.inl h)

theorem readTo_congr {positions : Positions} (h : positions.get? t.name = t.positions.get? t.name) :
    t.file.readTo maxBytes positions = t.file.readTo maxBytes t.positions := by
  have hwhole : t.file.whole maxBytes positions = t.file.whole maxBytes t.positions :=
    whole_congr h
  have hpos : t.file.position positions t.data.length = t.position := by
    change (if _ then _ else _) = _
    rw [file, h]
    rfl
  unfold LogFile.readTo
  rw [hwhole]
  change (_, t.file.position positions t.data.length + _) = _
  rw [hpos]
  rfl

end LogTail

end ReadLogs

end OpenvpnServer.Collector
