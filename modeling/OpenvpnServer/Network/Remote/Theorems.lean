import OpenvpnServer.Network.Remote.Lemmas
import OpenvpnServer.Network.Theorems

namespace OpenvpnServer.Network

open OpenvpnServer.Lib OpenvpnServer.Lib.Ipaddress

variable {server : Text} {socket : Socket} {lines : List Text}
open OpenvpnServer.Config (afterWord endLine replaceCrLf)

section Ports

variable {wide : Char → Bool}

theorem isPort_findRemotes {client : Text} {remote : Remote} (h : remote ∈ findRemotes wide client) :
    IsPort wide remote.port := by
  obtain ⟨here, after, hmatch⟩ := mem_findAllFrom h
  obtain ⟨_, _, _, -, -, hport, -⟩ := remoteAt_cases hmatch
  exact isPort_of_portAt hport

theorem isPort_default : IsPort wide "1194".toList :=
  ⟨by decide, fun c hc => by
    have hdigit : ("1194".toList).all Char.isDigit = true := by decide
    rw [digitChar, List.all_eq_true.mp hdigit c hc, Bool.true_or]⟩

theorem isPort_localAt {start rest : Text} {port : Text} {proto : Option Proto}
    (h : localAt wide start = some ((some port, proto), rest)) : IsPort wide port := by
  unfold localAt at h
  split at h
  · cases h
  · split at h
    · cases h
    · obtain ⟨address, -, heq⟩ := Option.map_eq_some_iff.mp h
      split at heq
      · cases heq
      · rename_i found hfound
        cases heq
        exact isPort_of_portAt hfound

theorem isPort_serverListen (h : socket ∈ serverListen wide server) :
    IsPort wide socket.port := by
  have hdefault : IsPort wide ((searchLines (fun start =>
      (afterOption "port" start).bind (digitsAt wide)) (universalNewlines server)).elim
        "1194".toList Prod.fst) := by
    cases hsearch : searchLines (fun start => (afterOption "port" start).bind (digitsAt wide))
        (universalNewlines server) with
    | none => exact isPort_default
    | some found =>
        obtain ⟨start, -, hstart⟩ := List.exists_of_findSome?_eq_some hsearch
        obtain ⟨rest, -, hdigits⟩ := Option.bind_eq_some_iff.mp hstart
        exact (isPort_of_digitsAt hdigits).1
  unfold serverListen at h
  dsimp only at h
  split at h
  · rw [List.mem_singleton.mp h]
    exact hdefault
  · obtain ⟨listen, hlisten, rfl⟩ := List.mem_map.mp h
    obtain ⟨here, after, hmatch⟩ := mem_findAllFrom hlisten
    obtain ⟨port, proto⟩ := listen
    cases port with
    | none => exact hdefault
    | some port => exact isPort_localAt hmatch

theorem mem_sortedListen :
    socket ∈ sortedListen wide server ↔ socket ∈ serverListen wide server := by
  unfold sortedListen
  rw [List.mem_append, List.mem_filter, List.mem_filter]
  by_cases hudp : socket.proto = .udp
  · simp [hudp]
  · simp [hudp]

theorem sortedListen_ne_nil (wide : Char → Bool) (server : Text) : sortedListen wide server ≠ [] := by
  have hne : serverListen wide server ≠ [] := by
    unfold serverListen
    dsimp only
    split
    · exact List.cons_ne_nil _ _
    · rename_i hfound
      intro hnil
      exact hfound (List.map_eq_nil_iff.mp hnil)
  obtain ⟨socket, rest, hcons⟩ := List.exists_cons_of_ne_nil hne
  have hmem : socket ∈ sortedListen wide server :=
    mem_sortedListen.mpr (by rw [hcons]; exact List.mem_cons_self)
  exact List.ne_nil_of_mem hmem

theorem isPort_remotePort {client : Text}
    (h : socket ∈ sortedListen wide server) : IsPort wide (remotePort wide .empty client socket) := by
  have hown := isPort_serverListen (mem_sortedListen.mp h)
  change IsPort wide ((currentPort wide client socket.proto).getD socket.port)
  cases hcurrent : currentPort wide client socket.proto with
  | none => exact hown
  | some port =>
      obtain ⟨remote, hfind, rfl⟩ := Option.map_eq_some_iff.mp hcurrent
      have hmem := List.mem_reverse.mp (List.mem_of_find?_eq_some hfind)
      obtain ⟨found, hfound, rfl⟩ := List.mem_map.mp hmem
      exact isPort_findRemotes hfound

theorem isWord_of_validHost {host : Text} (h : validHost host = true) : IsWord host := by
  simp only [validHost, Bool.and_eq_true, decide_eq_true_eq, List.all_eq_true] at h
  refine ⟨h.1.1, fun c hc => ?_⟩
  have hrange : 45 ≤ c.toNat ∧ c.toNat ≤ 122 := by
    have hchar := h.2 c hc
    simp only [Bool.or_eq_true, isAlphanum_iff, decide_eq_true_eq, List.mem_cons,
      List.not_mem_nil, or_false] at hchar
    rcases hchar with hcode | rfl | rfl | rfl
    · omega
    all_goals decide
  simp only [pySpace, Bool.or_eq_false_iff, Bool.and_eq_false_iff, decide_eq_false_iff_not,
    List.mem_cons, List.not_mem_nil, or_false]
  omega

end Ports

section Written

variable {wide : Char → Bool} {python : Python} {host server client written : Text}

def writtenLines (wide : Char → Bool) (host server client : Text) : List Text :=
  (profileLines client).take (clientIndex (profileLines client)) ++
    ((sortedListen wide server).map fun socket =>
      remoteLine (pyStrip host) (remotePort wide .empty client socket) socket.proto) ++
    (profileLines client).drop (clientIndex (profileLines client))

theorem lineBreak_profileLines {line : Text} (h : line ∈ profileLines client) :
    ∀ c ∈ line, lineBreak c = false :=
  lineBreak_of_mem_pyLines (List.mem_filter.mp h).1

theorem lineBreak_writtenLines (wide : Char → Bool) (server client : Text) (hhost : validHost (pyStrip host) = true) :
    ∀ line ∈ writtenLines wide host server client, ∀ c ∈ line, lineBreak c = false := by
  intro line hline
  rw [writtenLines, List.mem_append, List.mem_append] at hline
  rcases hline with (hfront | hremote) | hback
  · exact lineBreak_profileLines (List.mem_of_mem_take hfront)
  · obtain ⟨socket, hsocket, rfl⟩ := List.mem_map.mp hremote
    exact lineBreak_remoteLine (isWord_of_validHost hhost) (isPort_remotePort hsocket).isWord _
  · exact lineBreak_profileLines (List.mem_of_mem_drop hback)

theorem writtenLines_ne_nil : writtenLines wide host server client ≠ [] := by
  have hne : sortedListen wide server ≠ [] := sortedListen_ne_nil wide server
  simp [writtenLines, hne]

theorem clientConfText_confContent (hne : lines ≠ [])
    (h : ∀ line ∈ lines, ∀ c ∈ line, lineBreak c = false) :
    clientConfText (confContent lines) =
      if 200000 < (confContent lines).length then .error (.pki "Configuration file too large".toList)
      else .ok (unlines lines) := by
  have hcr : '\r' ∉ unlines lines := not_mem_unlines (by decide) fun line hline hmem =>
    absurd (h line hline '\r' hmem) (by decide)
  have hcontent : confContent lines = unlines lines := joinWith_unlines hne
  have hlast : (unlines lines).getLast? = some '\n' := by
    rw [← joinWith_unlines hne, List.getLast?_concat]
  unfold clientConfText
  rw [hcontent, replaceCrLf_of_not_mem hcr, endLine, if_pos hlast]

theorem setRemote_eq_ok : setRemote wide python host .empty server client = .ok written ↔
    validHost (pyStrip host) = true ∧
      checkPorts python (remotePort wide .empty client) (sortedListen wide server) = .ok () ∧
      (confContent (writtenLines wide host server client)).length ≤ 200000 ∧
      written = unlines (writtenLines wide host server client) := by
  unfold setRemote validateRemote
  by_cases hhost : validHost (pyStrip host) = false
  · rw [if_pos hhost]
    simp [hhost]
  · rw [Bool.not_eq_false] at hhost
    rw [if_neg (by simp [hhost])]
    cases hports : checkPorts python (remotePort wide .empty client) (sortedListen wide server) with
    | error refusal => simp
    | ok =>
        dsimp only
        change clientConfText (confContent (writtenLines wide host server client)) = _ ↔ _
        rw [clientConfText_confContent writtenLines_ne_nil (lineBreak_writtenLines wide server client hhost)]
        by_cases hlong : 200000 < (confContent (writtenLines wide host server client)).length
        · rw [if_pos hlong]
          simp [Nat.not_le_of_lt hlong]
        · rw [if_neg hlong]
          simp [hhost, Nat.le_of_not_lt hlong, eq_comm]

theorem universalNewlines_unlines
    (h : ∀ line ∈ lines, ∀ c ∈ line, lineBreak c = false) :
    universalNewlines (unlines lines) = unlines lines :=
  universalNewlines_of_not_mem (not_mem_unlines (by decide) fun line hline hmem =>
    absurd (h line hline '\r' hmem) (by decide))

theorem pyLines_unlines
    (h : ∀ line ∈ lines, ∀ c ∈ line, lineBreak c = false) : pyLines (unlines lines) = lines :=
  pyLines_lines h

theorem remoteOrProto_remoteLine (port : Text) (proto : Proto) :
    remoteOrProto (remoteLine host port proto) = true := by
  have hline := remoteLine_append host port [] proto
  rw [List.append_nil, List.append_nil] at hline
  have hdrop (rest : Text) : ("remote".toList ++ rest).dropWhile pySpace = "remote".toList ++ rest :=
    List.dropWhile_cons_of_neg (by decide)
  unfold remoteOrProto afterOption
  rw [hline, hdrop, afterWord_of_append]
  rfl

theorem profileLines_written (hhost : validHost (pyStrip host) = true) :
    profileLines (unlines (writtenLines wide host server client)) = profileLines client := by
  have hbreaks := lineBreak_writtenLines wide server client hhost
  have hkept : ∀ line ∈ profileLines client, (!remoteOrProto line) = true :=
    fun line hline => (List.mem_filter.mp hline).2
  conv_lhs => unfold profileLines
  rw [universalNewlines_unlines hbreaks, pyLines_unlines hbreaks, writtenLines, List.filter_append,
    List.filter_append,
    List.filter_eq_self.mpr fun line hline => hkept line (List.mem_of_mem_take hline),
    List.filter_eq_self.mpr fun line hline => hkept line (List.mem_of_mem_drop hline),
    List.filter_eq_nil_iff.mpr, List.append_nil, List.take_append_drop]
  intro line hline
  obtain ⟨socket, -, rfl⟩ := List.mem_map.mp hline
  simp [remoteOrProto_remoteLine]

def frontLines (client : Text) : List Text :=
  (profileLines client).take (clientIndex (profileLines client))

def backLines (client : Text) : List Text :=
  (profileLines client).drop (clientIndex (profileLines client))

theorem findRemotes_written (hhost : validHost (pyStrip host) = true) :
    findRemotes wide (unlines (writtenLines wide host server client)) =
      findRemotes wide (unlines (frontLines client)) ++
        (sortedListen wide server).map (fun socket =>
          ⟨pyStrip host, remotePort wide .empty client socket, some socket.proto⟩) ++
        findRemotes wide (unlines (backLines client)) := by
  have hfront : ∀ line ∈ frontLines client, ∀ c ∈ line, lineBreak c = false :=
    fun line hline => lineBreak_profileLines (List.mem_of_mem_take hline)
  have hback : ∀ line ∈ backLines client, ∀ c ∈ line, lineBreak c = false :=
    fun line hline => lineBreak_profileLines (List.mem_of_mem_drop hline)
  have hlines : ∀ line ∈ profileLines client, '\n' ∉ line := fun line hline hmem =>
    absurd (lineBreak_profileLines hline '\n' hmem) (by decide)
  unfold findRemotes
  rw [universalNewlines_unlines (lineBreak_writtenLines wide server client hhost),
    universalNewlines_unlines hfront, universalNewlines_unlines hback]
  exact findAllLines_written (isWord_of_validHost hhost) hlines (sortedListen_ne_nil wide server)
    fun socket hsocket => isPort_remotePort hsocket

end Written

section Stable

variable {wide : Char → Bool} {python : Python} {host server client written : Text}

def NoOtherRemote (wide : Char → Bool) (client : Text) : Prop :=
  findRemotes wide (unlines (frontLines client)) = [] ∧
    findRemotes wide (unlines (backLines client)) = []

-- The sockets of a protocol that has no remote yet have one port.
def PortsAgree (wide : Char → Bool) (server client : Text) : Prop :=
  ∀ socket ∈ serverListen wide server, ∀ other ∈ serverListen wide server,
    socket.proto = other.proto → currentPort wide client socket.proto = none →
      socket.port = other.port

instance (wide : Char → Bool) (client : Text) : Decidable (NoOtherRemote wide client) :=
  inferInstanceAs (Decidable (_ ∧ _))

instance (wide : Char → Bool) (server client : Text) : Decidable (PortsAgree wide server client) :=
  inferInstanceAs (Decidable (∀ socket ∈ serverListen wide server,
    ∀ other ∈ serverListen wide server, socket.proto = other.proto →
      currentPort wide client socket.proto = none → socket.port = other.port))

def newRemotes (wide : Char → Bool) (server client : Text) : List Socket :=
  (sortedListen wide server).map fun socket => ⟨remotePort wide .empty client socket, socket.proto⟩

theorem remotes_written (server : Text) (hhost : validHost (pyStrip host) = true)
    (hother : NoOtherRemote wide client) :
    findRemotes wide (unlines (writtenLines wide host server client)) =
        (sortedListen wide server).map (fun socket =>
          ⟨pyStrip host, remotePort wide .empty client socket, some socket.proto⟩) ∧
      getRemote wide (unlines (writtenLines wide host server client)) =
        ⟨pyStrip host, newRemotes wide server client⟩ := by
  have hfound : findRemotes wide (unlines (writtenLines wide host server client)) =
      (sortedListen wide server).map (fun socket =>
        ⟨pyStrip host, remotePort wide .empty client socket, some socket.proto⟩) := by
    rw [findRemotes_written hhost, hother.1, hother.2, List.nil_append, List.append_nil]
  refine ⟨hfound, ?_⟩
  obtain ⟨socket, rest, hcons⟩ := List.exists_cons_of_ne_nil (sortedListen_ne_nil wide server)
  unfold getRemote
  dsimp only
  rw [hfound, List.map_map, hcons]
  simp [newRemotes, hcons, Function.comp_def]

theorem remotePort_written (hhost : validHost (pyStrip host) = true)
    (hother : NoOtherRemote wide client)
    (hsocket : socket ∈ sortedListen wide server) :
    ∃ other ∈ sortedListen wide server, other.proto = socket.proto ∧
      ∀ same ∈ sortedListen wide server, same.proto = socket.proto →
        remotePort wide .empty (unlines (writtenLines wide host server client)) same =
          remotePort wide .empty client other := by
  obtain ⟨found, hfound⟩ : ∃ found, (newRemotes wide server client).reverse.find?
      (·.proto = socket.proto) = some found := by
    rw [← Option.isSome_iff_exists, List.find?_isSome]
    exact ⟨_, List.mem_reverse.mpr (List.mem_map_of_mem hsocket), decide_eq_true rfl⟩
  have hproto : found.proto = socket.proto := by simpa using List.find?_some hfound
  have hmem := List.mem_reverse.mp (List.mem_of_find?_eq_some hfound)
  obtain ⟨other, hlisten, rfl⟩ := List.mem_map.mp hmem
  refine ⟨other, hlisten, hproto, fun same _ hsame => ?_⟩
  have hcurrent : currentPort wide (unlines (writtenLines wide host server client)) same.proto =
      some (remotePort wide .empty client other) := by
    unfold currentPort
    rw [(remotes_written server hhost hother).2, hsame, hfound]
    rfl
  change (currentPort wide _ same.proto).getD same.port = _
  rw [hcurrent, Option.getD_some]

theorem remotePort_eq_iff {other : Socket} (hproto : socket.proto = other.proto) :
    remotePort wide .empty client socket = remotePort wide .empty client other ↔
      (currentPort wide client socket.proto = none → socket.port = other.port) := by
  change (currentPort wide client socket.proto).getD socket.port =
    (currentPort wide client other.proto).getD other.port ↔ _
  rw [← hproto]
  cases currentPort wide client socket.proto <;> simp

theorem ports_written_iff (hhost : validHost (pyStrip host) = true)
    (hother : NoOtherRemote wide client) :
    (∀ socket ∈ sortedListen wide server,
      remotePort wide .empty (unlines (writtenLines wide host server client)) socket =
        remotePort wide .empty client socket) ↔ PortsAgree wide server client := by
  constructor
  · intro hsame socket hsocket other hmem hproto
    rw [← mem_sortedListen] at hsocket hmem
    obtain ⟨last, -, -, hlast⟩ := remotePort_written hhost hother hsocket
    refine (remotePort_eq_iff hproto).mp ?_
    rw [← hsame socket hsocket, ← hsame other hmem, hlast socket hsocket rfl,
      hlast other hmem hproto.symm]
  · intro hagree socket hsocket
    obtain ⟨last, hlast, hproto, hports⟩ := remotePort_written hhost hother hsocket
    rw [hports socket hsocket rfl]
    exact (remotePort_eq_iff hproto).mpr
      (hagree last (mem_sortedListen.mp hlast) socket (mem_sortedListen.mp hsocket) hproto)

theorem remoteLine_injective {port other : Text} {proto : Proto}
    (h : remoteLine host port proto = remoteLine host other proto) : port = other := by
  unfold remoteLine at h
  exact (List.cons.inj (List.append_cancel_left (List.append_cancel_right h))).2

theorem writtenLines_written_iff (hhost : validHost (pyStrip host) = true) :
    writtenLines wide host server (unlines (writtenLines wide host server client)) =
        writtenLines wide host server client ↔
      ∀ socket ∈ sortedListen wide server,
        remotePort wide .empty (unlines (writtenLines wide host server client)) socket =
          remotePort wide .empty client socket := by
  have hwritten : writtenLines wide host server (unlines (writtenLines wide host server client)) =
      frontLines client ++ ((sortedListen wide server).map fun socket =>
        remoteLine (pyStrip host) (remotePort wide .empty
          (unlines (writtenLines wide host server client)) socket) socket.proto) ++
        backLines client := by
    change (profileLines (unlines (writtenLines wide host server client))).take _ ++ _ ++
      (profileLines (unlines (writtenLines wide host server client))).drop _ = _
    rw [profileLines_written hhost]
    rfl
  have hfirst : writtenLines wide host server client =
      frontLines client ++ ((sortedListen wide server).map fun socket =>
        remoteLine (pyStrip host) (remotePort wide .empty client socket) socket.proto) ++
        backLines client := rfl
  generalize unlines (writtenLines wide host server client) = next at hwritten ⊢
  rw [hwritten, hfirst, List.append_cancel_right_eq, List.append_cancel_left_eq, List.map_inj_left]
  refine forall₂_congr fun socket _ => ⟨remoteLine_injective, fun hport => ?_⟩
  rw [hport]

theorem checkPorts_congr (python : Python) {port other : Socket → Text} {sockets : List Socket}
    (h : ∀ socket ∈ sockets, port socket = other socket) :
    checkPorts python port sockets = checkPorts python other sockets := by
  induction sockets with
  | nil => rfl
  | cons socket rest ih =>
      rw [checkPorts, checkPorts, h socket List.mem_cons_self,
        ih fun more hmore => h more (List.mem_cons_of_mem _ hmore)]

theorem setRemote_written_iff (h : setRemote wide python host .empty server client = .ok written)
    (hother : NoOtherRemote wide client) :
    setRemote wide python host .empty server written = .ok written ↔
      PortsAgree wide server client := by
  obtain ⟨hhost, hports, hlength, rfl⟩ := setRemote_eq_ok.mp h
  rw [← ports_written_iff hhost hother, setRemote_eq_ok, ← writtenLines_written_iff hhost]
  constructor
  · rintro ⟨-, -, -, hwritten⟩
    have hlines := congrArg pyLines hwritten
    rw [pyLines_unlines (lineBreak_writtenLines wide server client hhost),
      pyLines_unlines (lineBreak_writtenLines wide server _ hhost)] at hlines
    exact hlines.symm
  · intro hsame
    have hcheck := checkPorts_congr python ((writtenLines_written_iff hhost).mp hsame)
    exact ⟨hhost, hcheck.trans hports, by rw [hsame]; exact hlength, by rw [hsame]⟩

theorem sortProtos_sortedListen (wide : Char → Bool) (server : Text) :
    sortProtos ((sortedListen wide server).map Socket.proto) =
      sortProtos ((serverListen wide server).map Socket.proto) := by
  have hsorted : (sortedListen wide server).map Socket.proto =
      ((serverListen wide server).map Socket.proto).filter (· = .udp) ++
        ((serverListen wide server).map Socket.proto).filter (· ≠ .udp) := by
    rw [sortedListen, List.map_append, List.filter_map, List.filter_map]
    rfl
  have hnone (protos : List Proto) (p : Proto → Bool) (hp : ∀ proto, p proto = false) :
      protos.filter p = [] := List.filter_eq_nil_iff.mpr fun proto _ => by simp [hp proto]
  rw [hsorted]
  unfold sortProtos
  rw [List.filter_append, List.filter_append, List.filter_filter, List.filter_filter,
    List.filter_filter, List.filter_filter]
  rw [hnone _ (fun proto => decide (proto = .tcp) && decide (proto = .udp))
      (fun proto => by cases proto <;> rfl),
    hnone _ (fun proto => decide (proto = .udp) && decide (proto ≠ .udp))
      (fun proto => by cases proto <;> rfl), List.nil_append, List.append_nil]
  congr 1
  · exact List.filter_congr fun proto _ => by cases proto <;> rfl
  · exact List.filter_congr fun proto _ => by cases proto <;> rfl

def OneRemoteEach (wide : Char → Bool) (host server client : Text) : Prop :=
  (getRemote wide client).host = host ∧
    (∀ remote ∈ findRemotes wide client, remote.host = host) ∧
    (getRemote wide client).remotes.map Socket.proto =
      (sortedListen wide server).map Socket.proto

theorem oneRemoteEach_iff (hhost : validHost (pyStrip host) = true) :
    OneRemoteEach wide (pyStrip host) server (unlines (writtenLines wide host server client)) ↔
      NoOtherRemote wide client := by
  constructor
  · rintro ⟨-, -, hprotos⟩
    have hlength := congrArg List.length hprotos
    simp only [getRemote, List.length_map, findRemotes_written hhost, List.length_append] at hlength
    exact ⟨List.length_eq_zero_iff.mp (by omega), List.length_eq_zero_iff.mp (by omega)⟩
  · intro hother
    obtain ⟨hfound, hremote⟩ := remotes_written server hhost hother
    refine ⟨by rw [hremote], fun remote hmem => ?_, ?_⟩
    · rw [hfound] at hmem
      obtain ⟨socket, -, rfl⟩ := List.mem_map.mp hmem
      rfl
    · rw [hremote, newRemotes, List.map_map]
      rfl

theorem newRemotes_of_none (h : findRemotes wide client = []) :
    newRemotes wide server client = sortedListen wide server := by
  have hcurrent (proto : Proto) : currentPort wide client proto = none := by
    simp only [currentPort, getRemote, h, List.map_nil, List.reverse_nil, List.find?_nil,
      Option.map_none]
  unfold newRemotes
  conv_rhs => rw [← List.map_id (sortedListen wide server)]
  refine List.map_congr_left fun socket _ => ?_
  change (⟨(currentPort wide client socket.proto).getD socket.port, socket.proto⟩ : Socket) = socket
  rw [hcurrent, Option.getD_none]

theorem set_remote_stable_iff (h : setRemote wide python host .empty server client = .ok written) :
    (OneRemoteEach wide (pyStrip host) server written ∧
        setRemote wide python host .empty server written = .ok written ∧
        syncRemotes wide python server written = .ok (false, written) ∧
        (findRemotes wide client = [] →
          (getRemote wide written).remotes = sortedListen wide server)) ↔
      NoOtherRemote wide client ∧ PortsAgree wide server client := by
  obtain ⟨hhost, -, -, hwritten⟩ := setRemote_eq_ok.mp h
  have heach : OneRemoteEach wide (pyStrip host) server written ↔ NoOtherRemote wide client := by
    rw [hwritten]
    exact oneRemoteEach_iff hhost
  constructor
  · rintro ⟨hone, hsecond, -, -⟩
    exact ⟨heach.mp hone, (setRemote_written_iff h (heach.mp hone)).mp hsecond⟩
  · rintro ⟨hother, hagree⟩
    have hremote : getRemote wide written = ⟨pyStrip host, newRemotes wide server client⟩ := by
      rw [hwritten]
      exact (remotes_written server hhost hother).2
    refine ⟨heach.mpr hother, (setRemote_written_iff h hother).mpr hagree, ?_, fun hnone => ?_⟩
    · have hprotos : (newRemotes wide server client).map Socket.proto =
          (sortedListen wide server).map Socket.proto := by
        rw [newRemotes, List.map_map]
        rfl
      unfold syncRemotes
      dsimp only
      rw [hremote, if_pos]
      right
      rw [hprotos, sortProtos_sortedListen]
    · rw [hremote]
      exact newRemotes_of_none hnone

def bothProtocols : Text :=
  "local 0.0.0.0 1194 udp\nlocal 0.0.0.0 443 tcp-server\n".toList

def movedProfile : Text := "dev tun\nclient\nremote old.example.com 1197\nproto udp\n".toList

theorem moved_profile_stable : ∃ written,
    setRemote (fun _ => false) asciiPython "vpn.example.com".toList .empty bothProtocols
        movedProfile = .ok written ∧
      written = ("dev tun\nclient\nremote vpn.example.com 1197 udp\n" ++
        "remote vpn.example.com 443 tcp\n").toList ∧
      OneRemoteEach (fun _ => false) "vpn.example.com".toList bothProtocols written ∧
      setRemote (fun _ => false) asciiPython "vpn.example.com".toList .empty bothProtocols
        written = .ok written := by
  have hset : setRemote (fun _ => false) asciiPython "vpn.example.com".toList .empty bothProtocols
      movedProfile = .ok ("dev tun\nclient\nremote vpn.example.com 1197 udp\n" ++
        "remote vpn.example.com 443 tcp\n").toList := by decide +kernel
  have hstrip : pyStrip "vpn.example.com".toList = "vpn.example.com".toList := by decide +kernel
  obtain ⟨hone, hsecond, -, -⟩ :=
    (set_remote_stable_iff hset).mpr ⟨by decide +kernel, by decide +kernel⟩
  rw [hstrip] at hone
  exact ⟨_, hset, rfl, hone, hsecond⟩

-- Two sockets of one protocol: after the second call both remotes have the port of the
-- last one.
def twoUdpSockets : Text := "local 0.0.0.0 1194 udp\nlocal 0.0.0.0 1195 udp\n".toList

def firstCall : Text :=
  "client\nremote vpn.example.com 1194 udp\nremote vpn.example.com 1195 udp\n".toList

theorem second_call_loses_port :
    setRemote (fun _ => false) asciiPython "vpn.example.com".toList .empty twoUdpSockets
        "client\n".toList = .ok firstCall ∧
      setRemote (fun _ => false) asciiPython "vpn.example.com".toList .empty twoUdpSockets
          firstCall =
        .ok "client\nremote vpn.example.com 1195 udp\nremote vpn.example.com 1195 udp\n".toList ∧
      ¬(setRemote (fun _ => false) asciiPython "vpn.example.com".toList .empty twoUdpSockets
        firstCall = .ok firstCall) := by
  decide +kernel

end Stable

end OpenvpnServer.Network
