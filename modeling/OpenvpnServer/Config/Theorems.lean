import OpenvpnServer.Config.Openvpn.Lemmas

namespace OpenvpnServer.Config

open OpenvpnServer.Lib

variable {raw content : Text} {after disk : Bytes}

section Accepted

variable {which : Which}

theorem checkLine_spec (hwhich : which ≠ .vars) {known : List Text} {n : Nat}
    (h : checkLine which known n raw = .ok ()) :
    strip raw ∈ known ∨ (utf8 raw).length ≤ maxLine ∧ optionName raw ∉ privileged := by
  by_cases hknown : strip raw ∈ known
  · exact .inl hknown
  · right
    unfold checkLine at h
    simp only [if_neg hknown] at h
    cases which with
    | vars => exact absurd rfl hwhich
    | server | client =>
        split at h
        · cases h
        · rename_i hshort
          split at h
          · cases h
          · rename_i hname
            exact ⟨Nat.le_of_not_lt hshort, hname⟩

theorem checkLine_of_checkLines {known lines : List Text} {n : Nat}
    (h : checkLines which known n lines = .ok ()) :
    ∀ raw ∈ lines, ∃ k, checkLine which known k raw = .ok () := by
  induction lines generalizing n with
  | nil => simp
  | cons first rest ih =>
      intro raw hraw
      unfold checkLines at h
      cases hfirst : checkLine which known n first with
      | error failure => simp [hfirst] at h
      | ok _ =>
          simp only [hfirst] at h
          rcases List.mem_cons.mp hraw with rfl | hrest
          · exact ⟨n, hfirst⟩
          · exact ih h raw hrest

theorem writeConfig_spec
    (h : writeConfig which content = .ok after) :
    after = utf8 (endLine (replaceCrLf content)) := by
  unfold writeConfig at h
  split at h
  · cases h
  · dsimp only at h
    split at h
    · cases h
    · exact (Except.ok.inj h).symm

theorem mem_splitOn_endLine {line : Text}
    (h : line ∈ (removeBom (endLine content)).splitOn '\n') :
    line = [] ∨ line ∈ (removeBom content).splitOn '\n' := by
  unfold endLine at h
  split at h
  · exact .inr h
  · have happend : removeBom (content ++ ['\n']) = removeBom content ++ ['\n'] := by
      cases content with
      | nil => decide
      | cons c rest =>
          unfold removeBom
          rw [List.cons_append, List.head?_cons, List.head?_cons]
          split <;> rfl
    rw [happend, List.splitOn_append_cons_self, List.mem_append] at h
    rcases h with hline | hnil
    · exact .inr hline
    · exact .inl (by simpa using hnil)

-- What an accepted edit is: every line passed the check against the file on
-- disk, and OpenVPN now reads those lines and perhaps a blank one.
theorem editStep_spec (hwhich : which ≠ .vars)
    (h : editStep which disk content = some after) :
    (∃ current, readConfig disk = .ok current ∧ ∀ raw ∈ submittedLines content,
      strip raw ∈ known current ∨ (utf8 raw).length ≤ maxLine ∧ optionName raw ∉ privileged) ∧
    ∀ line ∈ physicalLines after, line = [] ∨ ∃ raw ∈ submittedLines content, line = octets raw := by
  unfold editStep putConfig at h
  cases hcheck : checkEdit which disk content with
  | error failure => simp [hcheck] at h
  | ok _ =>
      simp only [hcheck] at h
      refine ⟨?_, ?_⟩
      · unfold checkEdit at hcheck
        split at hcheck
        · cases hcheck
        · cases hread : readConfig disk with
          | error failure => simp [hread] at hcheck
          | ok current =>
              simp only [hread] at hcheck
              refine ⟨current, rfl, ?_⟩
              intro raw hraw
              obtain ⟨k, hline⟩ := checkLine_of_checkLines hcheck raw hraw
              exact checkLine_spec hwhich hline
      · have hafter : after = utf8 (endLine (replaceCrLf content)) := by
          cases hwrite : writeConfig which content with
          | error failure => simp [hwrite] at h
          | ok bytes =>
              simp only [hwrite, Option.some.injEq] at h
              exact h ▸ writeConfig_spec hwrite
        intro line hline
        rw [hafter, physicalLines_utf8] at hline
        obtain ⟨text, htext, rfl⟩ := List.mem_map.mp hline
        rcases mem_splitOn_endLine htext with rfl | hmem
        · exact .inl octets_nil
        · exact .inr ⟨text, hmem, rfl⟩

end Accepted

section Invariant

variable {initial : Bytes}

def Harmless (initial : Bytes) (line : Text) : Prop :=
  line ∈ (openvpnLines initial).map strip ∨ line ∈ tfaLines ∨ optionName line ∉ privileged

def AllHarmless (initial disk : Bytes) : Prop :=
  ∀ line ∈ openvpnLines disk, Harmless initial (strip line)

theorem allHarmless_refl : AllHarmless initial initial := fun _ hline =>
  .inl (List.mem_map_of_mem hline)

theorem harmless_nil : Harmless initial [] := .inr (.inr (by decide))

theorem harmless_of_inPlace {piece : Text} (h : AllHarmless initial disk)
    (hraw : InPlace disk raw) (hpiece : piece ∈ pieces (octets raw)) :
    Harmless initial (strip piece) := by
  obtain ⟨line, hline, hsame⟩ := hraw
  rcases pieces_of_rstrip_eq hsame hpiece with hblank | ⟨same, hmem, hstrip⟩
  · rw [hblank]
    exact harmless_nil
  · rw [hstrip]
    exact h same (List.mem_flatMap.mpr ⟨line, hline, hmem⟩)

theorem tfaLines_ascii : ∀ line ∈ tfaLines, ∀ c ∈ line, c.toNat < 128 := by
  have hall : ∀ line ∈ tfaLines, (line.all fun c => decide (c.toNat < 128)) = true := by
    decide
  intro line hline
  exact List.all_iff_forall_prop.mp (hall line hline)

theorem harmless_of_onePiece {current : Text} (h : AllHarmless initial disk)
    (hcr : crPaired (latin1 disk) = true) (hread : readConfig disk = .ok current)
    (hraw : OnePiece disk raw) (hend : PlainEnd raw)
    (hpassed : strip raw ∈ known current ∨
      (utf8 raw).length ≤ maxLine ∧ optionName raw ∉ privileged) :
    Harmless initial (strip (octets raw)) := by
  have hunprivileged : optionName (strip raw) ∉ privileged →
      Harmless initial (strip (octets raw)) := by
    intro hname
    rw [strip_octets]
    refine .inr (.inr fun hprivileged => hname ?_)
    rw [optionName_octets] at hprivileged
    exact privileged_of_octets hprivileged
  rcases hpassed with hknown | ⟨-, hname⟩
  · rcases List.mem_append.mp hknown with hdisk | htfa
    · rcases physical_of_known hcr hread hdisk with hphysical | ⟨rest, hbom⟩
      · -- the line it repeats is read in one piece, too
        rw [← strip_octets] at hphysical
        obtain ⟨line, hline, hstrip, hshort⟩ := hraw.2 hphysical
        rw [← hstrip]
        exact h line (mem_openvpnLines_of_short hline hshort)
      · apply hunprivileged
        rw [hbom]
        exact optionName_cons_not_ascii (by decide) rest
    · rw [strip_octets, octets_ascii (tfaLines_ascii _ htfa)]
      exact .inr (.inl htfa)
  · exact hunprivileged fun hstrip => hname (hend hstrip)

theorem allHarmless_step {which : Which} (hwhich : which ≠ .vars)
    (h : AllHarmless initial disk) (hcareful : CarefulEdit disk content)
    (hstep : editStep which disk content = some after) : AllHarmless initial after := by
  obtain ⟨hcr, hlines⟩ := hcareful
  obtain ⟨⟨current, hread, hpassed⟩, hafter⟩ := editStep_spec hwhich hstep
  intro piece hpiece
  obtain ⟨line, hline, hmem⟩ := List.mem_flatMap.mp hpiece
  rcases hafter line hline with rfl | ⟨raw, hraw, rfl⟩
  · rw [pieces_of_short (Nat.zero_le _), List.mem_singleton] at hmem
    rw [hmem]
    exact harmless_nil
  · obtain ⟨hwhere, hend⟩ := hlines raw hraw
    rcases hwhere with hplace | hone
    · exact harmless_of_inPlace h hplace hmem
    · rw [pieces_of_short hone.1, List.mem_singleton] at hmem
      rw [hmem]
      exact harmless_of_onePiece h hcr hread hone hend (hpassed raw hraw)

end Invariant

theorem readConfig_utf8 (text : Text) : readConfig (utf8 text) = .ok (universalNewlines text) := by
  unfold readConfig
  rw [utf8Decode?_utf8]

theorem editStep_utf8 {which : Which} {text : Text}
    (hcontrol : (replaceCrLf content).any isControl = false)
    (hcheck : checkLines which (known (universalNewlines text)) 1 (submittedLines content) = .ok ())
    (hwrite : writeConfig which content = .ok after) :
    editStep which (utf8 text) content = some after := by
  simp [editStep, putConfig, checkEdit, hcontrol, readConfig_utf8, hcheck, hwrite]

theorem privileged_lines_kept {which : Which} (hwhich : which ≠ .vars) {initial disk : Bytes}
    (hr : Reaches (editStep which) CarefulEdit initial disk) :
    ∀ line ∈ openvpnLines disk, optionName line ∈ privileged →
      (∃ old ∈ openvpnLines initial, strip line = strip old) ∨ strip line ∈ tfaLines := by
  have hharmless : AllHarmless initial disk := by
    refine Reaches.invariant (P := AllHarmless initial) hr ?_ allHarmless_refl
    intro before content after h hcareful hstep
    exact allHarmless_step hwhich h hcareful hstep
  intro line hline hname
  rcases hharmless line hline with hold | htfa | hnot
  · obtain ⟨old, hmem, hstrip⟩ := List.mem_map.mp hold
    exact .inl ⟨old, hmem, hstrip.symm⟩
  · exact .inr htfa
  · exact absurd (optionName_strip hname) hnot

def profile : Text := "client\nup /etc/openvpn/up.sh\n".toList

def profileEdit : Text := "client\r\n  up /etc/openvpn/up.sh\r\nmssfix 1300".toList

theorem profile_keeps_program :
    ∃ disk, editStep .client (utf8 profile) profileEdit = some disk ∧
      "  up /etc/openvpn/up.sh".toList ∈ openvpnLines disk ∧
      ∀ line ∈ openvpnLines disk, optionName line ∈ privileged →
        (∃ old ∈ openvpnLines (utf8 profile), strip line = strip old) ∨ strip line ∈ tfaLines := by
  have hstep : editStep .client (utf8 profile) profileEdit =
      some (utf8 "client\n  up /etc/openvpn/up.sh\nmssfix 1300\n".toList) :=
    editStep_utf8 (by decide +kernel) (by decide +kernel) (by decide +kernel)
  refine ⟨_, hstep, by decide +kernel, ?_⟩
  exact privileged_lines_kept (by decide) ((Reaches.refl _).tail profileEdit (by decide +kernel) hstep)

-- A comment, and the same comment behind so many blanks that OpenVPN reads its
-- end as a line of its own.
def commentEdit : Text := "client\n# up /tmp/x\n".toList

def paddedEdit : Text :=
  "client\n".toList ++ List.replicate 253 ' ' ++ "# up /tmp/x\n".toList

theorem padded_comment_runs_program :
    ∃ disk, Reaches (editStep .client) (fun _ _ => True) (utf8 "client\n".toList) disk ∧
      "up /tmp/x".toList ∈ openvpnLines disk ∧
      optionName "up /tmp/x".toList ∈ privileged ∧
      ¬((∃ old ∈ openvpnLines (utf8 "client\n".toList), strip "up /tmp/x".toList = strip old) ∨
        strip "up /tmp/x".toList ∈ tfaLines) := by
  have hcomment : editStep .client (utf8 "client\n".toList) commentEdit =
      some (utf8 commentEdit) :=
    editStep_utf8 (by decide +kernel) (by decide +kernel) (by decide +kernel)
  have hpadded : editStep .client (utf8 commentEdit) paddedEdit = some (utf8 paddedEdit) :=
    editStep_utf8 (by decide +kernel) (by decide +kernel) (by decide +kernel)
  refine ⟨utf8 paddedEdit, ?_, by decide +kernel, by decide +kernel, by decide +kernel⟩
  exact ((Reaches.refl _).tail commentEdit trivial hcomment).tail paddedEdit trivial hpadded

end OpenvpnServer.Config
