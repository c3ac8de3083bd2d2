import OpenvpnServer.Management.Client

namespace OpenvpnServer.Management

open OpenvpnServer.Lib

variable {line buf : Bytes} {text : Text} {c : Conn} {lines : List Bytes} {call : Call}
  {response : Response} {event : Event}

section Lines

def noted (line : Bytes) : Bool := isNotification (decodeLine line)

def replies (lines : List Bytes) : List Bytes := lines.filter fun line => ! noted line

@[simp] theorem replies_nil : replies [] = [] := rfl

theorem replies_append (lines more : List Bytes) :
    replies (lines ++ more) = replies lines ++ replies more := List.filter_append ..

theorem replies_cons_of_noted (h : noted line = true) (rest : List Bytes) :
    replies (line :: rest) = replies rest := by
  simp [replies, h]

theorem replies_cons_of_reply (h : noted line = false) (rest : List Bytes) :
    replies (line :: rest) = line :: replies rest := by
  simp [replies, h]

theorem noted_of_replies {rest : List Bytes} (h : replies (line :: rest) = []) :
    noted line = true ∧ replies rest = [] := by
  cases hnoted : noted line with
  | false =>
      rw [replies_cons_of_reply hnoted] at h
      cases h
  | true =>
      rw [replies_cons_of_noted hnoted] at h
      exact ⟨rfl, h⟩

theorem not_notification_of_status {line : Text} (h : isStatus line = true) :
    isNotification line = false := by
  rw [isStatus, Bool.or_eq_true] at h
  rcases h with h | h
  all_goals
    obtain ⟨rest, rfl⟩ := List.isPrefixOf_iff_prefix.mp h
    rfl

theorem status_ne_endMarker {line : Text} (h : isStatus line = true) : line ≠ endMarker := by
  intro hend
  rw [hend] at h
  exact absurd h (by decide)

theorem rdropWhile_append {p : Char → Bool} (h : ∀ c ∈ text.getLast?, p c = false)
    (rest : Text) : (text ++ rest).rdropWhile p = text ++ rest.rdropWhile p := by
  induction rest using List.reverseRecOn with
  | nil =>
      rw [List.append_nil, List.rdropWhile_nil, List.append_nil, List.rdropWhile_eq_self_iff]
      intro hne
      simp [h _ (List.getLast_mem_getLast? hne)]
  | append_singleton rest c ih =>
      rw [← List.append_assoc]
      by_cases hc : p c = true
      · rw [List.rdropWhile_concat_pos _ _ _ hc, List.rdropWhile_concat_pos _ _ _ hc, ih]
      · rw [List.rdropWhile_concat_neg _ _ _ hc, List.rdropWhile_concat_neg _ _ _ hc,
          List.append_assoc]

theorem decodeLine_prompt (h : passwordPrompt <+: line) :
    isNotification (decodeLine line) = false ∧ decodeLine line ≠ endMarker ∧
      isStatus (decodeLine line) = false := by
  obtain ⟨tail, rfl⟩ := h
  have hascii : ∀ c ∈ "ENTER PASSWORD:".toList, c.toNat < 128 :=
    List.all_iff_forall_prop.mp (by decide)
  have hdecoded : decodeLine (passwordPrompt ++ tail) =
      "ENTER PASSWORD:".toList ++ (utf8Replace tail).rdropWhile (· = '\r') := by
    unfold decodeLine passwordPrompt
    rw [utf8Replace_utf8_append hascii]
    exact rdropWhile_append (fun c hc => by cases hc; decide) _
  rw [hdecoded]
  refine ⟨rfl, ?_, rfl⟩
  intro hend
  have hlength := congrArg List.length hend
  rw [List.length_append, show "ENTER PASSWORD:".toList.length = 15 from rfl,
    show endMarker.length = 3 from rfl] at hlength
  omega

theorem newline_not_mem_utf8 (h : '\n' ∉ text) : newline ∉ utf8 text := by
  induction text with
  | nil => exact List.not_mem_nil
  | cons c rest ih =>
      rw [List.mem_cons, not_or] at h
      rw [show utf8 (c :: rest) = utf8 [c] ++ utf8 rest by simp [utf8], List.mem_append, not_or]
      refine ⟨fun hmem => ?_, ih h.2⟩
      have hoctet : Char.ofUInt8 newline ∈ octets [c] := List.mem_map_of_mem hmem
      have hother : ∀ d ∈ octets [c], (d == '\n') = false :=
        octets_singleton_of_not (fun d hd => by rw [eq_of_beq hd]; decide)
          (by simpa using Ne.symm h.1)
      exact absurd (hother _ hoctet) (by decide)

theorem send_eq (h : '\n' ∉ text) (c : Conn) (call : Option Call) :
    c.send call text = { c with inbox := c.inbox ++ [(call, utf8 text)] } := by
  have hlines : (utf8 (text ++ ['\n'])).splitOn newline = [utf8 text, []] := by
    rw [show utf8 (text ++ ['\n']) = utf8 text ++ newline :: [] by simp [utf8]; decide]
    exact List.splitOnP_append_cons_of_forall_mem
      (fun byte hbyte => by
        simp only [beq_eq_false_iff_ne]
        rintro rfl
        exact newline_not_mem_utf8 h hbyte) newline (by simp) []
  unfold Conn.send
  rw [hlines]
  rfl

end Lines

section Situations

structure Quiet (c : Conn) (buf : Bytes) (lines : List Bytes) : Prop where
  authorized : c.authorized = true
  writing : c.writing = []
  stream : Carries newline lines [] (buf ++ c.wire)
  notified : replies lines = []

-- What is on the connection in each phase. In the last two the server took the command for
-- the password, since the client did not wait for the prompt.
inductive Situation (served : List Served) : Phase → Option Conn → Bytes → Prop where
  | closed {buf : Bytes} (hbuf : buf = []) : Situation served .idle none buf
  | connecting {call : Call} {last : Bool} {buf : Bytes} (hbuf : buf = []) :
      Situation served (.connecting call last) none buf
  | rested {c : Conn} {buf : Bytes} {lines : List Bytes} (hquiet : Quiet c buf lines)
      (hinbox : c.inbox = []) : Situation served .idle (some c) buf
  | welcomed {call : Call} {last : Bool} {c : Conn} {buf : Bytes} {lines : List Bytes}
      (hquiet : Quiet c buf lines) (hinbox : c.inbox = [])
      (hplain : ∀ line ∈ lines, ¬passwordPrompt <:+: line) :
      Situation served (.greeting call last) (some c) buf
  | prompted {call : Call} {last : Bool} {c : Conn} {buf : Bytes} (hauth : c.authorized = false)
      (hinbox : c.inbox = []) (hwriting : c.writing = [])
      (hstream : buf ++ c.wire = passwordPrompt) :
      Situation served (.greeting call last) (some c) buf
  | asked {call : Call} {last : Bool} {c : Conn} {buf : Bytes} {password : Option Call × Bytes}
      (hauth : c.authorized = false) (hinbox : c.inbox = [password]) (hwriting : c.writing = [])
      (hstream : buf ++ c.wire = []) : Situation served (.checking call last) (some c) buf
  | admitted {call : Call} {last : Bool} {c : Conn} {buf reply : Bytes} {lines : List Bytes}
      (hauth : c.authorized = true) (hinbox : c.inbox = []) (hwriting : c.writing = [])
      (hstream : Carries newline lines [] (buf ++ c.wire)) (hreply : replies lines = [reply]) :
      Situation served (.checking call last) (some c) buf
  | rejected {call : Call} {last : Bool} {c : Conn} {buf reply : Bytes}
      (hauth : c.authorized = false) (hinbox : c.inbox = []) (hwriting : c.writing = [])
      (hstream : Carries newline [reply] passwordPrompt (buf ++ c.wire))
      (hreply : noted reply = false) (hwrong : isSuccess (decodeLine reply) = false) :
      Situation served (.checking call last) (some c) buf
  | sent {call : Call} {last : Bool} {c : Conn} {buf : Bytes} {lines : List Bytes}
      (hquiet : Quiet c buf lines) (hinbox : c.inbox = [(some call, utf8 call.cmd)]) :
      Situation served (.reading call last []) (some c) buf
  | answered {call : Call} {last : Bool} {c : Conn} {buf : Bytes} {lines taken : List Bytes}
      {response : Response}
      (hserved : ⟨c.number, some call, utf8 call.cmd, response⟩ ∈ served)
      (hresponse : response.WellFormed) (hauth : c.authorized = true) (hinbox : c.inbox = [])
      (hstream : Carries newline lines [] (buf ++ c.wire))
      (hlines : taken ++ (replies lines ++ c.writing) = response.lines) :
      Situation served (.reading call last (taken.map decodeLine)) (some c) buf
  | mistaken {call : Call} {last : Bool} {c : Conn} {buf : Bytes} {command : Option Call × Bytes}
      (hauth : c.authorized = false) (hinbox : c.inbox = [command]) (hwriting : c.writing = [])
      (hstream : buf ++ c.wire = passwordPrompt) :
      Situation served (.reading call last []) (some c) buf
  | misled {call : Call} {last : Bool} {c : Conn} {buf tail : Bytes} {lines : List Bytes}
      {taken : List Text} (hinbox : c.inbox = []) (hwriting : c.writing = [])
      (hstream : Carries newline lines tail (buf ++ c.wire))
      (htail : c.authorized = true → tail = [])
      (hfirst : taken = [] → ∃ first more, lines = first :: more ∧ passwordPrompt <+: first ∧
        replies more = [])
      (hrest : taken ≠ [] → replies lines = []) :
      Situation served (.reading call last taken) (some c) buf

variable {served : List Served}

-- What is on its way and what has arrived count together, so that it does not matter how the
-- stream is cut.
theorem Situation.moved {phase : Phase} {buf' wire' : Bytes}
    (h : Situation served phase (some c) buf) (hsame : buf' ++ wire' = buf ++ c.wire) :
    Situation served phase (some { c with wire := wire' }) buf' := by
  have hquiet' : ∀ {lines : List Bytes}, Quiet c buf lines →
      Quiet { c with wire := wire' } buf' lines :=
    fun hquiet => ⟨hquiet.authorized, hquiet.writing, hsame ▸ hquiet.stream, hquiet.notified⟩
  cases h with
  | rested hquiet hinbox => exact .rested (hquiet' hquiet) hinbox
  | welcomed hquiet hinbox hplain => exact .welcomed (hquiet' hquiet) hinbox hplain
  | prompted hauth hinbox hwriting hstream =>
      exact .prompted hauth hinbox hwriting (hsame.trans hstream)
  | asked hauth hinbox hwriting hstream => exact .asked hauth hinbox hwriting (hsame.trans hstream)
  | admitted hauth hinbox hwriting hstream hreply =>
      exact .admitted hauth hinbox hwriting (hsame ▸ hstream) hreply
  | rejected hauth hinbox hwriting hstream hreply hwrong =>
      exact .rejected hauth hinbox hwriting (hsame ▸ hstream) hreply hwrong
  | sent hquiet hinbox => exact .sent (hquiet' hquiet) hinbox
  | answered hserved hresponse hauth hinbox hstream hlines =>
      exact .answered hserved hresponse hauth hinbox (hsame ▸ hstream) hlines
  | mistaken hauth hinbox hwriting hstream =>
      exact .mistaken hauth hinbox hwriting (hsame.trans hstream)
  | misled hinbox hwriting hstream htail hfirst hrest =>
      exact .misled hinbox hwriting (hsame ▸ hstream) htail hfirst hrest

theorem Situation.sendCommand
    {last : Bool} (hquiet : Quiet c buf lines) (hinbox : c.inbox = []) (hcmd : '\n' ∉ call.cmd) :
    Situation served (.reading call last []) (some (c.send (some call) call.cmd)) buf := by
  rw [send_eq hcmd]
  have hquiet' : Quiet { c with inbox := c.inbox ++ [(some call, utf8 call.cmd)] } buf lines :=
    ⟨hquiet.authorized, hquiet.writing, hquiet.stream, hquiet.notified⟩
  exact .sent hquiet' (by rw [hinbox, List.nil_append])

theorem Quiet.cut {rest : Bytes}
    (h : Quiet c buf lines) (hcut : cutFirst newline buf = some (line, rest)) :
    noted line = true ∧ ∃ more, lines = line :: more ∧ Quiet c rest more := by
  obtain ⟨more, hlines, hstream⟩ := h.stream.cut hcut
  obtain ⟨hnoted, hnone⟩ := noted_of_replies (hlines ▸ h.notified)
  exact ⟨hnoted, more, hlines, h.authorized, h.writing, hstream, hnone⟩

end Situations

section Reading

theorem Response.next (h : response.WellFormed) {taken rest : List Bytes}
    (hlines : taken ++ line :: rest = response.lines) :
    (decodeLine line = endMarker ∧ rest = [] ∧ taken.map decodeLine = response.answer) ∨
      (decodeLine line ≠ endMarker ∧ isStatus (decodeLine line) = true ∧ taken = [] ∧ rest = [] ∧
        [decodeLine line] = response.answer) ∨
      (decodeLine line ≠ endMarker ∧ ¬(isStatus (decodeLine line) = true ∧ taken = [])) := by
  cases response with
  | status only =>
      have hone : taken = [] ∧ line = only ∧ rest = [] := by
        cases taken with
        | nil => simpa [Response.lines] using hlines
        | cons first more => simp [Response.lines] at hlines
      obtain ⟨rfl, rfl, rfl⟩ := hone
      exact .inr (.inl ⟨status_ne_endMarker h.2, h.2, rfl, rfl, rfl⟩)
  | several lines last =>
      obtain ⟨hplain, hhead, -, hlast⟩ := h
      rw [Response.lines] at hlines
      cases List.eq_nil_or_concat' rest with
      | inl hnil =>
          rw [hnil] at hlines
          obtain ⟨rfl, hsame⟩ := List.append_inj' hlines rfl
          cases hsame
          exact .inl ⟨hlast, hnil, rfl⟩
      | inr hmore =>
          -- the line stands before the last one
          obtain ⟨more, final, rfl⟩ := hmore
          rw [← List.cons_append, ← List.append_assoc] at hlines
          have hbefore := (List.append_inj' hlines rfl).1
          have hmem : line ∈ lines := by simp [← hbefore]
          refine .inr (.inr ⟨(hplain line hmem).2.1, ?_⟩)
          rintro ⟨hstatus, rfl⟩
          have hfirst := hhead line (by rw [← hbefore]; rfl)
          rw [hstatus] at hfirst
          cases hfirst

theorem Response.line_spec (h : response.WellFormed) :
    ∀ line ∈ response.lines, newline ∉ line ∧ noted line = false := by
  intro line hline
  cases response with
  | status only =>
      rw [Response.lines, List.mem_singleton] at hline
      rw [hline]
      exact ⟨h.1, not_notification_of_status h.2⟩
  | several lines last =>
      rcases List.mem_append.mp hline with hmem | hmem
      · exact ⟨(h.1 line hmem).1, (h.1 line hmem).2.2⟩
      · rw [List.mem_singleton.mp hmem, noted, h.2.2.2]
        exact ⟨h.2.2.1, rfl⟩

def Answers (served : List Served) (conn : Nat) (call : Call) (answer : List Text) : Prop :=
  ∃ response, ⟨conn, some call, utf8 call.cmd, response⟩ ∈ served ∧ response.answer = answer

inductive Taken (served : List Served) (c : Conn) (rest : Bytes) (call : Call) (last : Bool)
    (taken : List Text) (line : Text) : Prop where
  | notification (hnote : isNotification line = true)
      (h : Situation served (.reading call last taken) (some c) rest)
  | ends (hnote : isNotification line = false) (hend : line = endMarker)
      (h : Situation served .idle (some c) rest) (hanswer : Answers served c.number call taken)
  | whole (hnote : isNotification line = false) (hend : line ≠ endMarker)
      (hstatus : isStatus line = true ∧ taken = [])
      (h : Situation served .idle (some c) rest)
      (hanswer : Answers served c.number call (taken ++ [line]))
  | goesOn (hnote : isNotification line = false) (hend : line ≠ endMarker)
      (hstatus : ¬(isStatus line = true ∧ taken = []))
      (h : Situation served (.reading call last (taken ++ [line])) (some c) rest)

variable {served : List Served} {c : Conn} {buf line rest : Bytes} {call : Call} {last : Bool}

theorem not_cut_prompt (hstream : buf ++ c.wire = passwordPrompt) :
    cutFirst newline buf ≠ some (line, rest) := by
  intro hcut
  have hplain : newline ∉ passwordPrompt := by decide
  obtain ⟨more, hlines, -⟩ := (hstream ▸ Carries.of_plain hplain).cut hcut
  cases hlines

theorem Situation.takes {taken : List Text}
    (h : Situation served (.reading call last taken) (some c) buf)
    (hcut : cutFirst newline buf = some (line, rest)) :
    Taken served c rest call last taken (decodeLine line) := by
  cases h with
  | sent hquiet hinbox =>
      obtain ⟨hnoted, more, -, hquiet'⟩ := hquiet.cut hcut
      exact .notification hnoted (.sent hquiet' hinbox)
  | mistaken hauth hinbox hwriting hstream => exact absurd hcut (not_cut_prompt hstream)
  | misled hinbox hwriting hstream htail hfirst hrest =>
      obtain ⟨more, rfl, hstream'⟩ := hstream.cut hcut
      by_cases htaken : taken = []
      · obtain ⟨first, others, hsame, hprompt, hnone⟩ := hfirst htaken
        cases hsame
        obtain ⟨hnote, hend, hstatus⟩ := decodeLine_prompt hprompt
        refine .goesOn hnote hend (by simp [hstatus]) (.misled hinbox hwriting hstream' htail ?_ ?_)
        · simp
        · exact fun _ => hnone
      · obtain ⟨hnoted, hnone⟩ := noted_of_replies (hrest htaken)
        exact .notification hnoted
          (.misled hinbox hwriting hstream' htail (fun hnil => absurd hnil htaken) fun _ => hnone)
  | @answered _ _ _ _ _ read response hserved hresponse hauth hinbox hstream hlines =>
      obtain ⟨more, rfl, hstream'⟩ := hstream.cut hcut
      cases hnoted : noted line with
      | true =>
          rw [replies_cons_of_noted hnoted] at hlines
          exact .notification hnoted (.answered hserved hresponse hauth hinbox hstream' hlines)
      | false =>
          rw [replies_cons_of_reply hnoted, List.cons_append] at hlines
          have hrested (hnil : replies more ++ c.writing = []) :
              Situation served .idle (some c) rest := by
            obtain ⟨hnone, hwriting⟩ := List.append_eq_nil_iff.mp hnil
            exact .rested ⟨hauth, hwriting, hstream', hnone⟩ hinbox
          rcases Response.next hresponse hlines with
            ⟨hend, hnil, hanswer⟩ | ⟨hend, hstatus, rfl, hnil, hanswer⟩ | ⟨hend, hstatus⟩
          · exact .ends hnoted hend (hrested hnil) ⟨response, hserved, hanswer.symm⟩
          · exact .whole hnoted hend ⟨hstatus, rfl⟩ (hrested hnil) ⟨response, hserved, hanswer.symm⟩
          · refine .goesOn hnoted hend (by simpa using hstatus) ?_
            have hgone : (read ++ [line]) ++ (replies more ++ c.writing) = response.lines := by
              rw [List.append_assoc, List.singleton_append]
              exact hlines
            have hnext : Situation served (.reading call last ((read ++ [line]).map decodeLine))
                (some c) rest := .answered hserved hresponse hauth hinbox hstream' hgone
            rwa [List.map_append, List.map_singleton] at hnext

theorem Situation.checks (h : Situation served (.checking call last) (some c) buf)
    (hcut : cutFirst newline buf = some (line, rest)) :
    (isNotification (decodeLine line) = true ∧
        Situation served (.checking call last) (some c) rest) ∨
      (isNotification (decodeLine line) = false ∧ (isSuccess (decodeLine line) = true →
        ∃ lines, Quiet c rest lines ∧ c.inbox = [])) := by
  cases h with
  | asked hauth hinbox hwriting hstream =>
      rw [(List.append_eq_nil_iff.mp hstream).1] at hcut
      cases hcut
  | @admitted _ _ _ _ reply _ hauth hinbox hwriting hstream hreply =>
      obtain ⟨more, rfl, hstream'⟩ := hstream.cut hcut
      cases hnoted : noted line with
      | true =>
          rw [replies_cons_of_noted hnoted] at hreply
          exact .inl ⟨hnoted, .admitted hauth hinbox hwriting hstream' hreply⟩
      | false =>
          rw [replies_cons_of_reply hnoted, List.cons.injEq] at hreply
          exact .inr ⟨hnoted, fun _ => ⟨more, ⟨hauth, hwriting, hstream', hreply.2⟩, hinbox⟩⟩
  | rejected hauth hinbox hwriting hstream hreply hwrong =>
      obtain ⟨more, hlines, -⟩ := hstream.cut hcut
      cases hlines
      refine .inr ⟨hreply, fun hsuccess => ?_⟩
      rw [hsuccess] at hwrong
      cases hwrong

end Reading

section Server

variable {served : List Served} {phase : Phase} {c : Conn} {buf : Bytes}

theorem Quiet.notify (h : Quiet c buf lines)
    (hline : Notifies line) : Quiet (c.put (line ++ [newline])) buf (lines ++ [line]) := by
  refine ⟨h.authorized, h.writing, ?_, ?_⟩
  · rw [Conn.put, ← List.append_assoc]
    exact h.stream.write hline.1
  · rw [replies_append, h.notified, replies_cons_of_noted hline.2, replies_nil, List.append_nil]

theorem Situation.notify (h : Situation served phase (some c) buf)
    (hauth : c.authorized = true) (hline : Notifies line)
    (hplain : ∀ call last, phase = .greeting call last → ¬passwordPrompt <:+: line) :
    Situation served phase (some (c.put (line ++ [newline]))) buf := by
  have hwrite : ∀ {lines : List Bytes}, Carries newline lines [] (buf ++ c.wire) →
      Carries newline (lines ++ [line]) [] (buf ++ (c.wire ++ (line ++ [newline]))) := by
    intro lines hstream
    rw [← List.append_assoc]
    exact hstream.write hline.1
  have hreplies : ∀ lines, replies (lines ++ [line]) = replies lines := by
    intro lines
    rw [replies_append, replies_cons_of_noted hline.2, replies_nil, List.append_nil]
  cases h with
  | rested hquiet hinbox => exact .rested (hquiet.notify hline) hinbox
  | welcomed hquiet hinbox hfree =>
      refine .welcomed (hquiet.notify hline) hinbox fun other hother => ?_
      rcases List.mem_append.mp hother with hold | hnew
      · exact hfree other hold
      · rw [List.mem_singleton.mp hnew]
        exact hplain _ _ rfl
  | prompted hno hinbox hwriting hstream => rw [hno] at hauth; cases hauth
  | asked hno hinbox hwriting hstream => rw [hno] at hauth; cases hauth
  | admitted hauth hinbox hwriting hstream hreply =>
      exact .admitted hauth hinbox hwriting (hwrite hstream) ((hreplies _).trans hreply)
  | rejected hno hinbox hwriting hstream hreply hwrong => rw [hno] at hauth; cases hauth
  | sent hquiet hinbox => exact .sent (hquiet.notify hline) hinbox
  | answered hserved hresponse hauth hinbox hstream hlines =>
      exact .answered hserved hresponse hauth hinbox (hwrite hstream) (by rwa [hreplies])
  | mistaken hno hinbox hwriting hstream => rw [hno] at hauth; cases hauth
  | misled hinbox hwriting hstream htail hfirst hrest =>
      rw [htail hauth] at hstream
      refine .misled hinbox hwriting (hwrite hstream) (fun _ => rfl) ?_ ?_
      · intro hnil
        obtain ⟨first, more, rfl, hprompt, hnone⟩ := hfirst hnil
        exact ⟨first, more ++ [line], rfl, hprompt, (hreplies more).trans hnone⟩
      · exact fun hne => (hreplies _).trans (hrest hne)

theorem Situation.judge {reply : Bytes} {received : Option Call × Bytes}
    {more : List (Option Call × Bytes)} (h : Situation served phase (some c) buf)
    (hauth : c.authorized = false) (hinbox : c.inbox = received :: more)
    (hplain : newline ∉ reply) (hstatus : isStatus (decodeLine reply) = true) :
    (isSuccess (decodeLine reply) = true → Situation served phase
        (some ({ c with authorized := true, inbox := more }.put (reply ++ [newline]))) buf) ∧
      (isSuccess (decodeLine reply) = false → Situation served phase
        (some ({ c with inbox := more }.put (reply ++ [newline] ++ passwordPrompt))) buf) := by
  have hprompt : newline ∉ passwordPrompt := by decide
  have hreply : noted reply = false := not_notification_of_status hstatus
  cases h with
  | rested hquiet _ => rw [hquiet.authorized] at hauth; cases hauth
  | welcomed hquiet _ _ => rw [hquiet.authorized] at hauth; cases hauth
  | prompted _ hnone _ _ => rw [hnone] at hinbox; cases hinbox
  | asked hno hone hwriting hstream =>
      rw [hone, List.cons.injEq] at hinbox
      have hwritten : Carries newline [reply] [] (buf ++ (c.wire ++ (reply ++ [newline]))) := by
        have hempty : Carries newline [] [] (buf ++ c.wire) := by
          rw [hstream]
          exact .of_plain List.not_mem_nil
        rw [← List.append_assoc]
        exact hempty.write hplain
      constructor
      · intro _
        exact .admitted rfl hinbox.2.symm hwriting hwritten (replies_cons_of_reply hreply [])
      · intro hwrong
        refine .rejected hno hinbox.2.symm hwriting ?_ hreply hwrong
        have hasked := hwritten.start hprompt
        simpa only [Conn.put, List.append_assoc] using hasked
  | admitted hyes _ _ _ _ => rw [hyes] at hauth; cases hauth
  | rejected _ hnone _ _ _ _ => rw [hnone] at hinbox; cases hinbox
  | sent hquiet _ => rw [hquiet.authorized] at hauth; cases hauth
  | answered _ _ hyes _ _ _ => rw [hyes] at hauth; cases hauth
  | mistaken hno hone hwriting hstream =>
      rw [hone, List.cons.injEq] at hinbox
      have hwritten : Carries newline [passwordPrompt ++ reply] []
          (buf ++ (c.wire ++ (reply ++ [newline]))) := by
        have hbegun : Carries newline [] passwordPrompt (buf ++ c.wire) := by
          rw [hstream]
          exact .of_plain hprompt
        rw [← List.append_assoc]
        exact hbegun.finish hplain
      have hfirst : ∃ first rest, [passwordPrompt ++ reply] = first :: rest ∧
          passwordPrompt <+: first ∧ replies rest = [] :=
        ⟨_, [], rfl, List.prefix_append _ _, rfl⟩
      constructor
      · intro _
        exact .misled hinbox.2.symm hwriting hwritten (fun _ => rfl) (fun _ => hfirst)
          (fun hne => absurd rfl hne)
      · intro _
        have hasked : Carries newline [passwordPrompt ++ reply] passwordPrompt
            (buf ++ (c.wire ++ (reply ++ [newline] ++ passwordPrompt))) := by
          simpa only [List.append_assoc] using hwritten.start hprompt
        exact .misled hinbox.2.symm hwriting hasked
          (fun hyes => by rw [show c.authorized = true from hyes] at hno; cases hno)
          (fun _ => hfirst) (fun hne => absurd rfl hne)
  | misled hnone _ _ _ _ _ => rw [hnone] at hinbox; cases hinbox

theorem Situation.serve {tag : Option Call} {more : List (Option Call × Bytes)}
    (h : Situation served phase (some c) buf) (hauth : c.authorized = true)
    (hinbox : c.inbox = (tag, line) :: more) (hresponse : response.WellFormed) :
    Situation ([⟨c.number, tag, line, response⟩] ++ served) phase
      (some { c with inbox := more, writing := response.lines }) buf := by
  cases h with
  | rested _ hnone => rw [hnone] at hinbox; cases hinbox
  | welcomed _ hnone _ => rw [hnone] at hinbox; cases hinbox
  | prompted _ hnone _ _ => rw [hnone] at hinbox; cases hinbox
  | asked hno _ _ _ => rw [hno] at hauth; cases hauth
  | admitted _ hnone _ _ _ => rw [hnone] at hinbox; cases hinbox
  | rejected _ hnone _ _ _ _ => rw [hnone] at hinbox; cases hinbox
  | @sent call last _ _ lines hquiet hone =>
      rw [hone, List.cons.injEq, Prod.mk.injEq] at hinbox
      obtain ⟨⟨rfl, rfl⟩, rfl⟩ := hinbox
      have hlines : [] ++ (replies lines ++ response.lines) = response.lines := by
        rw [hquiet.notified, List.nil_append, List.nil_append]
      exact @Situation.answered _ call last { c with inbox := [], writing := response.lines } buf
        lines [] response (List.mem_append_left _ (List.mem_singleton.mpr rfl)) hresponse hauth rfl
        hquiet.stream hlines
  | answered _ _ _ hnone _ _ => rw [hnone] at hinbox; cases hinbox
  | mistaken hno _ _ _ => rw [hno] at hauth; cases hauth
  | misled hnone _ _ _ _ _ => rw [hnone] at hinbox; cases hinbox

theorem Situation.write {more : List Bytes}
    (h : Situation served phase (some c) buf) (hwriting : c.writing = line :: more) :
    Situation served phase (some ({ c with writing := more }.put (line ++ [newline]))) buf := by
  cases h with
  | rested hquiet _ => rw [hquiet.writing] at hwriting; cases hwriting
  | welcomed hquiet _ _ => rw [hquiet.writing] at hwriting; cases hwriting
  | prompted _ _ hnone _ => rw [hnone] at hwriting; cases hwriting
  | asked _ _ hnone _ => rw [hnone] at hwriting; cases hwriting
  | admitted _ _ hnone _ _ => rw [hnone] at hwriting; cases hwriting
  | rejected _ _ hnone _ _ _ => rw [hnone] at hwriting; cases hwriting
  | sent hquiet _ => rw [hquiet.writing] at hwriting; cases hwriting
  | @answered _ _ _ _ lines taken response hserved hresponse hauth hinbox hstream hlines =>
      rw [hwriting] at hlines
      have hmem : line ∈ response.lines := by simp [← hlines]
      have hwritten : Carries newline (lines ++ [line]) []
          (buf ++ (c.wire ++ (line ++ [newline]))) := by
        rw [← List.append_assoc]
        exact hstream.write (Response.line_spec hresponse line hmem).1
      refine .answered hserved hresponse hauth hinbox hwritten ?_
      rw [replies_append, replies_cons_of_reply (Response.line_spec hresponse line hmem).2,
        replies_nil, List.append_assoc, List.singleton_append]
      exact hlines
  | mistaken _ _ hnone _ => rw [hnone] at hwriting; cases hwriting
  | misled _ hnone _ _ _ _ => rw [hnone] at hwriting; cases hwriting

end Server

section Runs

def Phase.call? : Phase → Option Call
  | .idle => none
  | .connecting call _ => some call
  | .greeting call _ => some call
  | .checking call _ => some call
  | .reading call _ _ => some call

-- A call that returned has the answer to its own command, on a connection that had not
-- failed.
def OwnAnswer (served : List Served) (result : Result) : Prop :=
  Answers served result.conn result.call result.lines ∧ result.conn ∉ result.failed

structure Sound (s : State) : Prop where
  situation : Situation s.served s.phase s.conn s.buf
  plain : ∀ call ∈ s.phase.call?, '\n' ∉ call.cmd
  results : ∀ result ∈ s.results, OwnAnswer s.served result
  numbered : ∀ number ∈ s.failed, number < s.opened
  working : ∀ c ∈ s.conn, c.number < s.opened ∧ c.number ∉ s.failed

def PlainCommand : Event → Prop
  | .call cmd => '\n' ∉ cmd
  | _ => True

instance (event : Event) : Decidable (PlainCommand event) :=
  match event with
  | .call cmd => inferInstanceAs (Decidable ('\n' ∉ cmd))
  | .connect _ | .recv _ | .greeted _ _ | .line | .fail | .notify _ | .judge _ | .serve _
  | .write => isTrue trivial

def Phase.isGreeting : Phase → Bool
  | .greeting _ _ => true
  | _ => false

-- Where the client looks for the prompt, no notification has its text, and the password is a
-- single line.
def Orderly (s : State) : Event → Prop
  | .connect greeting => ∀ line ∈ greeting, ¬passwordPrompt <:+: line
  | .notify line => s.phase.isGreeting = true → ¬passwordPrompt <:+: line
  | .greeted _ (.value (some password)) => '\n' ∉ password
  | .greeted _ .raises => cutAfter passwordPrompt s.buf = none
  | _ => True

instance (s : State) (event : Event) : Decidable (Orderly s event) :=
  match event with
  | .connect greeting => inferInstanceAs (Decidable (∀ line ∈ greeting, ¬passwordPrompt <:+: line))
  | .notify line =>
      inferInstanceAs (Decidable (s.phase.isGreeting = true → ¬passwordPrompt <:+: line))
  | .greeted _ (.value (some password)) => inferInstanceAs (Decidable ('\n' ∉ password))
  | .greeted _ .raises => inferInstanceAs (Decidable (cutAfter passwordPrompt s.buf = none))
  | .greeted _ (.value none) => isTrue trivial
  | .call _ | .recv _ | .line | .fail | .judge _ | .serve _ | .write => isTrue trivial

theorem init_sound : Sound .init :=
  ⟨.closed rfl, by simp [State.init, Phase.call?], by simp [State.init], by simp [State.init],
    by simp [State.init]⟩

variable {s next : State}

theorem Answers.mono {served : List Served} {conn : Nat} {answer : List Text}
    (h : Answers served conn call answer) (more : List Served) :
    Answers (more ++ served) conn call answer := by
  obtain ⟨response, hmem, hanswer⟩ := h
  exact ⟨response, List.mem_append_right _ hmem, hanswer⟩

theorem Sound.failAttempt (h : Sound s) (hcmd : '\n' ∉ call.cmd) (last : Bool) :
    Sound (s.failAttempt call last) := by
  unfold State.failAttempt State.close
  refine ⟨?_, ?_, h.results, ?_, by simp⟩
  · cases last with
    | true => exact .closed rfl
    | false => exact .connecting rfl
  · cases last with
    | true => simp [Phase.call?]
    | false =>
        intro other hother
        cases hother
        exact hcmd
  · intro number hnumber
    rcases List.mem_append.mp hnumber with hopen | hfailed
    · obtain ⟨c, hconn, rfl⟩ := Option.map_eq_some_iff.mp (Option.mem_toList.mp hopen)
      exact (h.working c hconn).1
    · exact h.numbered number hfailed

theorem Sound.startCall (h : Sound s) {cmd : Text} (hcmd : '\n' ∉ cmd)
    (hstep : s.startCall cmd = some next) : Sound next := by
  have hcall : ∀ call ∈ (some ⟨s.calls, cmd⟩ : Option Call), '\n' ∉ call.cmd := by
    intro call hsame
    cases hsame
    exact hcmd
  unfold State.startCall at hstep
  have hsituation := h.situation
  split at hstep
  · rename_i hphase hconn
    cases hstep
    rw [hphase, hconn] at hsituation
    cases hsituation with
    | closed hbuf =>
        refine ⟨?_, hcall, h.results, h.numbered, h.working⟩
        rw [hconn]
        exact .connecting hbuf
  · rename_i c hphase hconn
    cases hstep
    rw [hphase, hconn] at hsituation
    cases hsituation with
    | rested hquiet hinbox =>
        refine ⟨.sendCommand hquiet hinbox hcmd, hcall, h.results, h.numbered, ?_⟩
        intro other hother
        cases hother
        exact h.working c hconn
  · cases hstep

theorem Sound.connect (h : Sound s) {greeting : Option Bytes}
    (hplain : ∀ line ∈ greeting, ¬passwordPrompt <:+: line)
    (hstep : s.connect greeting = some next) : Sound next := by
  unfold State.connect at hstep
  split at hstep
  · rename_i call last hphase
    split at hstep
    · rename_i hgreeting
      cases hstep
      refine ⟨?_, ?_, h.results, ?_, ?_⟩
      · cases greeting with
        | none => exact .prompted rfl rfl rfl rfl
        | some line =>
            have hstream : Carries newline [line] [] (line ++ [newline]) :=
              (Carries.of_plain List.not_mem_nil).write (hgreeting line rfl).1
            have hnone : replies [line] = [] := replies_cons_of_noted (hgreeting line rfl).2 []
            refine .welcomed ⟨rfl, rfl, hstream, hnone⟩ rfl fun other hother => ?_
            rw [List.mem_singleton.mp hother]
            exact hplain line rfl
      · have hcalls := h.plain
        rw [hphase] at hcalls
        exact hcalls
      · intro number hnumber
        exact Nat.lt_succ_of_lt (h.numbered number hnumber)
      · intro c hc
        cases hc
        have hnumber : (Conn.greet s.opened greeting).number = s.opened := by
          cases greeting <;> rfl
        rw [hnumber]
        exact ⟨Nat.lt_succ_self _, fun hfailed => absurd (h.numbered _ hfailed) (Nat.lt_irrefl _)⟩
    · cases hstep
  · cases hstep

theorem Sound.recv (h : Sound s) {count : Nat} (hstep : s.recv count = some next) :
    Sound next := by
  unfold State.recv at hstep
  split at hstep
  · cases hstep
  · rename_i c hconn
    split at hstep
    · cases hstep
      have hsituation := h.situation
      rw [hconn] at hsituation
      refine ⟨hsituation.moved ?_, h.plain, h.results, h.numbered, ?_⟩
      · rw [List.append_assoc, List.take_append_drop]
      · intro other hother
        cases hother
        exact h.working c hconn
    · cases hstep

theorem Sound.fail (h : Sound s) (hstep : s.fail = some next) : Sound next := by
  have hplain := h.plain
  unfold State.fail at hstep
  cases hphase : s.phase with
  | idle =>
      rw [hphase] at hstep
      cases hstep
  | connecting call last | greeting call last | checking call last | reading call last lines =>
      rw [hphase] at hstep hplain
      cases hstep
      exact h.failAttempt (hplain call rfl) last

theorem Sound.afterGreeting (h : Sound s) {last : Bool}
    {password : PasswordRead} (hphase : s.phase = .greeting call last) (hconn : s.conn = some c)
    (hvalue : ∀ text, password = .value (some text) → '\n' ∉ text)
    (hraises : password = .raises → cutAfter passwordPrompt s.buf = none) :
    Sound (s.afterGreeting c call last password) := by
  have hsituation := h.situation
  have hcalls := h.plain
  rw [hphase] at hsituation hcalls
  rw [hconn] at hsituation
  have hcmd : '\n' ∉ call.cmd := hcalls call rfl
  have hworking : ∀ {c' : Conn}, c'.number = c.number → ∀ other ∈ some c',
      other.number < s.opened ∧ other.number ∉ s.failed := by
    intro c' hsame other hother
    cases hother
    rw [hsame]
    exact h.working c hconn
  unfold State.afterGreeting
  cases hcut : cutAfter passwordPrompt s.buf with
  | none =>
      dsimp only
      refine ⟨?_, hcalls, h.results, h.numbered, hworking rfl⟩
      cases hsituation with
      | welcomed hquiet hinbox hplain => exact .sendCommand hquiet hinbox hcmd
      | prompted hauth hinbox hwriting hstream =>
          -- the loop ended before the prompt was complete
          rw [State.sendCommand, send_eq hcmd, hinbox, List.nil_append]
          exact .mistaken hauth rfl hwriting hstream
  | some rest =>
      dsimp only
      cases hsituation with
      | @welcomed _ _ _ _ lines hquiet hinbox hplain =>
          have hinside : passwordPrompt <:+: s.buf ++ c.wire :=
            (infix_of_cutAfter hcut).trans (List.infix_append_of_infix_left (List.infix_refl _))
          obtain ⟨line, hline, hin⟩ :=
            hquiet.stream.mem_of_infix (by decide) (by decide) hinside
          exact absurd hin (hplain line hline)
      | prompted hauth hinbox hwriting hstream =>
          obtain ⟨rfl, -, hwire⟩ := eq_nil_of_cutAfter hstream hcut
          cases password with
          | raises => rw [hraises rfl] at hcut; cases hcut
          | value text =>
              cases text with
              | none => exact h.failAttempt hcmd last
              | some text =>
                  cases text with
                  | nil => exact h.failAttempt hcmd last
                  | cons first more =>
                      have hpassword := hvalue (first :: more) rfl
                      refine ⟨?_, hcalls, h.results, h.numbered, hworking rfl⟩
                      dsimp only
                      rw [send_eq hpassword, hinbox, List.nil_append]
                      exact .asked hauth rfl hwriting (by rw [List.nil_append]; exact hwire)

theorem Sound.greeted (h : Sound s) {late : Bool} {password : PasswordRead}
    (horderly : Orderly s (.greeted late password)) (hstep : s.greeted late password = some next) :
    Sound next := by
  unfold State.greeted at hstep
  split at hstep
  · rename_i call last c hphase hconn
    split at hstep
    · cases hstep
      refine h.afterGreeting hphase hconn ?_ ?_
      · rintro text rfl
        exact horderly
      · rintro rfl
        exact horderly
    · cases hstep
  · cases hstep

section Line

variable {c : Conn} {call : Call} {last : Bool} {line rest : Bytes}

theorem Sound.checkLine (h : Sound s) (hphase : s.phase = .checking call last)
    (hconn : s.conn = some c) (hcut : cutFirst newline s.buf = some (line, rest)) :
    Sound ({ s with buf := rest }.checkLine c call last (decodeLine line)) := by
  have hsituation := h.situation
  have hcalls := h.plain
  rw [hphase] at hsituation hcalls
  rw [hconn] at hsituation
  have hcmd : '\n' ∉ call.cmd := hcalls call rfl
  unfold State.checkLine
  rcases hsituation.checks hcut with ⟨hnote, hkept⟩ | ⟨hnote, hsuccess⟩
  · rw [if_pos hnote]
    refine ⟨?_, h.plain, h.results, h.numbered, h.working⟩
    dsimp only
    rw [hphase, hconn]
    exact hkept
  · rw [if_neg (by simp [hnote])]
    by_cases hline : isSuccess (decodeLine line) = true
    · rw [if_pos hline]
      obtain ⟨lines, hquiet, hinbox⟩ := hsuccess hline
      refine ⟨.sendCommand hquiet hinbox hcmd, hcalls, h.results, h.numbered, ?_⟩
      intro other hother
      cases hother
      exact h.working c hconn
    · rw [if_neg hline]
      exact h.failAttempt hcmd last

theorem Sound.finish (h : Sound s) (hconn : s.conn = some c) {lines : List Text}
    (hrest : Situation s.served .idle (some c) rest)
    (hanswer : Answers s.served c.number call lines) :
    Sound ({ s with buf := rest }.finish c call lines) := by
  refine ⟨?_, by simp [State.finish, Phase.call?], ?_, h.numbered, h.working⟩
  · show Situation s.served .idle s.conn rest
    rw [hconn]
    exact hrest
  · intro result hresult
    rcases List.mem_cons.mp hresult with rfl | hold
    · exact ⟨hanswer, (h.working c hconn).2⟩
    · exact h.results result hold

theorem Sound.takeLine (h : Sound s) {lines : List Text} (hphase : s.phase = .reading call last lines)
    (hconn : s.conn = some c) (hcut : cutFirst newline s.buf = some (line, rest)) :
    Sound ({ s with buf := rest }.takeLine c call last lines (decodeLine line)) := by
  have hsituation := h.situation
  have hcalls := h.plain
  rw [hphase] at hsituation hcalls
  rw [hconn] at hsituation
  unfold State.takeLine
  cases hsituation.takes hcut with
  | notification hnote hkept =>
      rw [if_pos hnote]
      refine ⟨?_, h.plain, h.results, h.numbered, h.working⟩
      dsimp only
      rw [hphase, hconn]
      exact hkept
  | ends hnote hend hrest hanswer =>
      rw [if_neg (by simp [hnote]), if_pos hend]
      exact h.finish hconn hrest hanswer
  | whole hnote hend hstatus hrest hanswer =>
      rw [if_neg (by simp [hnote]), if_neg hend, if_pos hstatus]
      exact h.finish hconn hrest hanswer
  | goesOn hnote hend hstatus hmore =>
      rw [if_neg (by simp [hnote]), if_neg hend, if_neg hstatus]
      refine ⟨?_, hcalls, h.results, h.numbered, h.working⟩
      dsimp only
      rw [hconn]
      exact hmore

theorem Sound.readLine (h : Sound s) (hstep : s.readLine = some next) : Sound next := by
  unfold State.readLine at hstep
  split at hstep
  · rename_i hconn hcut
    split at hstep
    · rename_i hphase
      cases hstep
      exact h.checkLine hphase hconn hcut
    · rename_i hphase
      cases hstep
      exact h.takeLine hphase hconn hcut
    · cases hstep
  · cases hstep

end Line

theorem Situation.server {served more : List Served} {phase : Phase} {c' : Conn}
    (h : Situation served phase (some c) buf)
    (hplain : ∀ line, event = .notify line → phase.isGreeting = true → ¬passwordPrompt <:+: line)
    (hstep : serverStep c event = some (c', more)) :
    c'.number = c.number ∧ Situation (more ++ served) phase (some c') buf := by
  cases event with
  | notify line =>
      unfold serverStep at hstep
      dsimp only at hstep
      split at hstep
      · rename_i hguard
        cases hstep
        refine ⟨rfl, h.notify hguard.1 hguard.2 ?_⟩
        rintro call last rfl
        exact hplain line rfl rfl
      · cases hstep
  | judge reply =>
      unfold serverStep at hstep
      dsimp only at hstep
      cases hinbox : c.inbox with
      | nil =>
          rw [hinbox] at hstep
          cases hstep
      | cons received rest =>
          rw [hinbox] at hstep
          dsimp only at hstep
          split at hstep
          · cases hstep
          · rename_i hguard
            simp only [not_or, Bool.not_eq_true, Bool.not_eq_false] at hguard
            obtain ⟨hauth, hreply, hstatus⟩ := hguard
            have hjudged := h.judge hauth hinbox hreply hstatus
            split at hstep
            · rename_i hsuccess
              cases hstep
              exact ⟨rfl, hjudged.1 hsuccess⟩
            · rename_i hwrong
              cases hstep
              exact ⟨rfl, hjudged.2 (Bool.eq_false_iff.mpr hwrong)⟩
  | serve response =>
      unfold serverStep at hstep
      dsimp only at hstep
      cases hinbox : c.inbox with
      | nil =>
          rw [hinbox] at hstep
          cases hstep
      | cons received rest =>
          rw [hinbox] at hstep
          dsimp only at hstep
          split at hstep
          · rename_i hguard
            cases hstep
            exact ⟨rfl, h.serve hguard.1 hinbox hguard.2.2⟩
          · cases hstep
  | write =>
      unfold serverStep at hstep
      dsimp only at hstep
      cases hwriting : c.writing with
      | nil =>
          rw [hwriting] at hstep
          cases hstep
      | cons line rest =>
          rw [hwriting] at hstep
          cases hstep
          exact ⟨rfl, h.write hwriting⟩
  | call _ | connect _ | recv _ | greeted _ _ | line | fail => cases hstep

theorem Sound.serve (h : Sound s) (horderly : Orderly s event)
    (hstep : s.serve event = some next) : Sound next := by
  unfold State.serve at hstep
  cases hconn : s.conn with
  | none =>
      rw [hconn] at hstep
      cases hstep
  | some c =>
      rw [hconn] at hstep
      obtain ⟨⟨c', more⟩, hserver, rfl⟩ := Option.map_eq_some_iff.mp hstep
      have hsituation := h.situation
      rw [hconn] at hsituation
      obtain ⟨hnumber, hafter⟩ := hsituation.server
        (by rintro line rfl hgreeting; exact horderly hgreeting) hserver
      refine ⟨hafter, h.plain, ?_, h.numbered, ?_⟩
      · intro result hresult
        exact ⟨(h.results result hresult).1.mono more, (h.results result hresult).2⟩
      · intro other hother
        cases hother
        rw [hnumber]
        exact h.working c hconn

theorem Sound.step (h : Sound s) (hplain : PlainCommand event)
    (horderly : Orderly s event) (hstep : mgmtStep s event = some next) : Sound next := by
  cases event with
  | call cmd => exact h.startCall hplain hstep
  | connect greeting => exact h.connect horderly hstep
  | recv count => exact h.recv hstep
  | greeted late password => exact h.greeted horderly hstep
  | line => exact h.readLine hstep
  | fail => exact h.fail hstep
  | notify line => exact h.serve horderly hstep
  | judge reply => exact h.serve horderly hstep
  | serve response => exact h.serve horderly hstep
  | write => exact h.serve horderly hstep

theorem Sound.buf_of_closed (h : Sound s) (hconn : s.conn = none) : s.buf = [] := by
  have hsituation := h.situation
  rw [hconn] at hsituation
  generalize s.phase = phase at hsituation
  cases hsituation with
  | closed hbuf => exact hbuf
  | connecting hbuf => exact hbuf

theorem answers_never_mixed_up (hr : Reaches mgmtStep
    (fun before event => PlainCommand event ∧ Orderly before event) .init s) :
    (∀ result ∈ s.results, ∃ response,
      ⟨result.conn, some result.call, utf8 result.call.cmd, response⟩ ∈ s.served ∧
        response.answer = result.lines ∧ result.conn ∉ result.failed) ∧
      (s.conn = none → s.buf = []) := by
  have hsound : Sound s := hr.invariant
    (fun before event after h hallowed hstep => h.step hallowed.1 hallowed.2 hstep) init_sound
  refine ⟨fun result hresult => ?_, hsound.buf_of_closed⟩
  obtain ⟨⟨response, hserved, hanswer⟩, hworked⟩ := hsound.results result hresult
  exact ⟨response, hserved, hanswer, hworked⟩

def bytes (text : String) : Bytes := utf8 text.toList

-- A prompt in two pieces, an answer that breaks off, and a second connection on which a
-- notification stands inside the answer.
def brokenRun : List Event :=
  [.call "status".toList, .connect none, .recv 6, .recv 9,
    .greeted false (.value (some "secret".toList)), .judge (bytes "SUCCESS: correct\r"), .recv 18,
    .line, .serve (.several [bytes "TITLE\r", bytes "CLIENT\r"] (bytes "END\r")), .write, .recv 5,
    .fail, .connect (some (bytes ">INFO:1\r")), .recv 9, .greeted false (.value none),
    .serve (.several [bytes "TITLE\r"] (bytes "END\r")), .write, .notify (bytes ">LOG:1\r"), .write,
    .line, .recv 3, .recv 14, .line, .line, .recv 3, .line,
    .call "load-stats".toList, .serve (.status (bytes "SUCCESS: n=1\r")), .write, .recv 14, .line]

theorem broken_run_answers_in_step :
    ∃ s, runSteps mgmtStep .init brokenRun = some s ∧
      s.results.map (fun result => (result.call.cmd, result.conn, result.lines)) =
        [("load-stats".toList, 1, ["SUCCESS: n=1".toList]), ("status".toList, 1, ["TITLE".toList])] ∧
      ∀ result ∈ s.results, ∃ response,
        ⟨result.conn, some result.call, utf8 result.call.cmd, response⟩ ∈ s.served ∧
          response.answer = result.lines ∧ result.conn ∉ result.failed := by
  have hallowed : AllowedRun mgmtStep
      (fun before event => PlainCommand event ∧ Orderly before event) .init brokenRun := by
    decide +kernel
  have hread : (runSteps mgmtStep .init brokenRun).map
      (fun s => s.results.map fun result => (result.call.cmd, result.conn, result.lines)) =
        some [("load-stats".toList, 1, ["SUCCESS: n=1".toList]),
          ("status".toList, 1, ["TITLE".toList])] := by
    decide +kernel
  obtain ⟨s, hrun, hresults⟩ := Option.map_eq_some_iff.mp hread
  exact ⟨s, hrun, hresults, (answers_never_mixed_up (Reaches.of_runSteps hrun hallowed)).1⟩

-- The file with the password has a second line, which the server takes for a command.
def twoLineRun : List Event :=
  [.call "status".toList, .connect none, .recv 15,
    .greeted false (.value (some "secret\nold".toList)), .judge (bytes "SUCCESS: correct\r"),
    .recv 18, .line, .serve (.status (bytes "ERROR: unknown\r")), .write, .recv 16, .line,
    .serve (.several [bytes "TITLE\r"] (bytes "END\r")), .write, .write,
    .call "load-stats".toList, .recv 12, .line, .line]

theorem two_line_password_shifts_answers :
    (∀ event ∈ twoLineRun, PlainCommand event) ∧
      ∃ s, runSteps mgmtStep .init twoLineRun = some s ∧
        s.results.map (fun result => (result.call.cmd, result.lines)) =
          [("load-stats".toList, ["TITLE".toList]), ("status".toList, ["ERROR: unknown".toList])] ∧
        ∀ result ∈ s.results, ¬∃ entry ∈ s.served, entry.conn = result.conn ∧
          entry.call = some result.call ∧ entry.response.answer = result.lines := by
  refine ⟨by decide, ?_⟩
  have hread : (runSteps mgmtStep .init twoLineRun).any (fun s =>
      decide (s.results.map (fun result => (result.call.cmd, result.lines)) =
        [("load-stats".toList, ["TITLE".toList]), ("status".toList, ["ERROR: unknown".toList])]) &&
      decide (∀ result ∈ s.results, ¬∃ entry ∈ s.served, entry.conn = result.conn ∧
        entry.call = some result.call ∧ entry.response.answer = result.lines)) = true := by
    decide
  obtain ⟨s, hrun, hs⟩ := (Option.any_eq_true _ _).mp hread
  simp only [Bool.and_eq_true, decide_eq_true_eq] at hs
  exact ⟨s, hrun, hs⟩

end Runs

end OpenvpnServer.Management
