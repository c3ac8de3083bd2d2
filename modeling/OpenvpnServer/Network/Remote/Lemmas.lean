import OpenvpnServer.Network.Remote
import OpenvpnServer.Network.ServerConf.Lemmas

namespace OpenvpnServer.Network

open OpenvpnServer.Lib OpenvpnServer.Lib.Ipaddress

variable {c : Char} {port text rest word : Text} {lines : List Text}
open OpenvpnServer.Config (afterWord endLine replaceCrLf)

section Words

variable {wide : Char → Bool}

-- What `(\d+)` matches.
def IsPort (wide : Char → Bool) (port : Text) : Prop :=
  port ≠ [] ∧ ∀ c ∈ port, digitChar wide c = true

theorem pySpace_of_digitChar (h : digitChar wide c = true) : pySpace c = false := by
  rw [digitChar, Bool.or_eq_true] at h
  rcases h with hdigit | hwide
  · exact pySpace_of_numberChar (.inr hdigit)
  · simp only [Bool.and_eq_true, Bool.not_eq_true'] at hwide
    exact hwide.2

theorem IsPort.isWord (h : IsPort wide port) : IsWord port :=
  ⟨h.1, fun c hc => pySpace_of_digitChar (h.2 c hc)⟩

theorem digitsAt_isPort (h : IsPort wide port) :
    digitsAt wide port = some (port, []) := by
  unfold digitsAt
  rw [List.takeWhile_eq_self_iff.mpr h.2, if_neg h.1, List.dropWhile_eq_nil_iff.mpr h.2]

theorem isPort_of_digitsAt (h : digitsAt wide text = some (port, rest)) :
    IsPort wide port ∧ rest.length ≤ text.length := by
  unfold digitsAt at h
  split at h
  · cases h
  · rename_i hne
    cases h
    exact ⟨⟨hne, fun c hc => List.mem_takeWhile_imp hc⟩, (List.dropWhile_sublist _).length_le⟩

theorem mem_of_digitsAt (h : digitsAt wide text = some (port, rest))
    (hc : c ∈ rest) : c ∈ text := by
  unfold digitsAt at h
  split at h
  · cases h
  · cases h
    exact (List.dropWhile_sublist _).mem hc

theorem spacedWord_word (hword : IsWord word)
    (hrest : ∀ c ∈ rest.head?, pySpace c = true) :
    spacedWord (' ' :: (word ++ rest)) = some (word, rest) := by
  have hblank : Blank [' '] := fun c hc => by
    rw [List.mem_singleton.mp hc]
    decide
  rw [spacedWord_cons (by decide), ← List.singleton_append, nextWord_blank hblank,
    nextWord_word hword hrest]

theorem isWord_of_all (hne : word ≠ []) (h : word.all (! pySpace ·) = true) :
    IsWord word :=
  ⟨hne, fun c hc => by simpa using List.all_eq_true.mp h c hc⟩

theorem isWord_proto (proto : Proto) : IsWord proto.text := by
  cases proto
  all_goals exact isWord_of_all (by decide) (by decide)

theorem protoAt_text (proto : Proto) : protoAt proto.text = some proto := by
  cases proto
  all_goals decide

theorem remoteLine_append (host port rest : Text) (proto : Proto) :
    remoteLine host port proto ++ rest = "remote".toList ++
      ' ' :: (host ++ ' ' :: (port ++ ' ' :: (proto.text ++ rest))) := by
  have hremote : "remote ".toList = "remote".toList ++ [' '] := by decide
  unfold remoteLine
  simp only [hremote, List.append_assoc, List.cons_append, List.nil_append]

theorem pySpace_of_lineBreak (h : lineBreak c = true) : pySpace c = true := by
  simp only [lineBreak, Bool.or_eq_true, Bool.and_eq_true, decide_eq_true_eq, List.mem_cons,
    List.not_mem_nil, or_false] at h
  simp only [pySpace, Bool.or_eq_true, Bool.and_eq_true, decide_eq_true_eq, List.mem_cons,
    List.not_mem_nil, or_false]
  omega

theorem lineBreak_remoteLine {host : Text} (hhost : IsWord host) (hport : IsWord port)
    (proto : Proto) : ∀ c ∈ remoteLine host port proto, lineBreak c = false := by
  have hremote : ("remote ".toList).all (fun c => !lineBreak c) = true := by decide
  have hword {word : Text} (hw : IsWord word) : ∀ c ∈ word, lineBreak c = false := by
    intro c hc
    by_contra hbreak
    have hspace := pySpace_of_lineBreak ((Bool.not_eq_false _).mp hbreak)
    rw [hw.2 c hc] at hspace
    cases hspace
  intro c hc
  unfold remoteLine at hc
  simp only [List.mem_append, List.mem_cons] at hc
  rcases hc with ((hc | hc) | rfl | hc) | rfl | hc
  · simpa using List.all_eq_true.mp hremote c hc
  · exact hword hhost c hc
  · decide
  · exact hword hport c hc
  · decide
  · exact hword (isWord_proto proto) c hc

theorem isWord_remote : IsWord "remote".toList := isWord_of_all (by decide) (by decide)

theorem remoteAt_remoteLine {host : Text} (hhost : IsWord host) (hport : IsPort wide port)
    (proto : Proto) (rest : Text) :
    remoteAt wide (remoteLine host port proto ++ '\n' :: rest) =
      some (⟨host, port, some proto⟩, '\n' :: rest) := by
  have hspace : ∀ c ∈ ('\n' :: rest).head?, pySpace c = true := fun c hc => by cases hc; decide
  have hblank (text : Text) : ∀ c ∈ (' ' :: text).head?, pySpace c = true :=
    fun c hc => by cases hc; decide
  have hword := nextWord_word isWord_remote
    (hblank (host ++ ' ' :: (port ++ ' ' :: (proto.text ++ '\n' :: rest))))
  have hrest : portAt wide (' ' :: (port ++ ' ' :: (proto.text ++ '\n' :: rest))) =
      some (port, ' ' :: (proto.text ++ '\n' :: rest)) := by
    unfold portAt
    rw [spacedWord_word hport.isWord (hblank _)]
    dsimp only
    rw [digitsAt_isPort hport]
    rfl
  have hproto : protoSuffix (' ' :: (proto.text ++ '\n' :: rest)) = (some proto, '\n' :: rest) := by
    unfold protoSuffix
    rw [spacedWord_word (isWord_proto proto) hspace]
    dsimp only
    rw [protoAt_text]
  rw [remoteLine_append]
  unfold remoteAt
  rw [hword]
  dsimp only
  rw [if_neg (by simp), spacedWord_word hhost (hblank _)]
  dsimp only
  rw [hrest, Option.map_some, hproto]

end Words

section Scan

variable {wide : Char → Bool}

theorem length_portAt (h : portAt wide text = some (port, rest)) :
    rest.length ≤ text.length := by
  unfold portAt at h
  split at h
  · cases h
  · rename_i word after hword
    obtain ⟨digits, hdigits, heq⟩ := Option.map_eq_some_iff.mp h
    cases heq
    have hlen := (length_spacedWord hword).2
    have hshort := (isPort_of_digitsAt hdigits).2
    rw [List.length_append]
    omega

theorem length_protoSuffix (text : Text) : (protoSuffix text).2.length ≤ text.length := by
  unfold protoSuffix
  split
  · exact Nat.le_refl _
  · rename_i word rest hword
    have hlen := (length_spacedWord hword).2
    split
    · exact Nat.le_refl _
    · dsimp only
      omega

theorem remoteAt_cases {start : Text} {remote : Remote}
    (h : remoteAt wide start = some (remote, rest)) :
    ∃ afterWord afterHost afterPort, nextWord start = some ("remote".toList, afterWord) ∧
      spacedWord afterWord = some (remote.host, afterHost) ∧
      portAt wide afterHost = some (remote.port, afterPort) ∧
      protoSuffix afterPort = (remote.proto, rest) := by
  unfold remoteAt at h
  split at h
  · cases h
  · rename_i word afterWord hword
    split at h
    · cases h
    · rename_i hremote
      rw [not_not] at hremote
      subst hremote
      split at h
      · cases h
      · rename_i host afterHost hhost
        obtain ⟨port, hport, heq⟩ := Option.map_eq_some_iff.mp h
        cases heq
        exact ⟨afterWord, afterHost, port.2, hword, hhost, hport, rfl⟩

theorem length_remoteAt {start : Text} {remote : Remote}
    (h : remoteAt wide start = some (remote, rest)) : rest.length < start.length := by
  obtain ⟨afterWord, afterHost, afterPort, hword, hhost, hport, hproto⟩ := remoteAt_cases h
  have hlen := length_nextWord hword
  have hhostLen := length_spacedWord hhost
  have hportLen := length_portAt hport
  have hprotoLen := length_protoSuffix afterPort
  rw [hproto] at hprotoLen
  dsimp only at hprotoLen
  omega

theorem isPort_of_portAt (h : portAt wide text = some (port, rest)) :
    IsPort wide port := by
  unfold portAt at h
  split at h
  · cases h
  · obtain ⟨digits, hdigits, heq⟩ := Option.map_eq_some_iff.mp h
    cases heq
    exact (isPort_of_digitsAt hdigits).1

theorem isWord_client : IsWord "client".toList := isWord_of_all (by decide) (by decide)

theorem EndsWith.spacedWord (h : EndsWith "client".toList text)
    (hspace : ∃ c rest, text = c :: rest ∧ pySpace c = true) :
    ∃ word rest, (∀ more, Lib.spacedWord (text ++ more) = some (word, rest ++ more)) ∧
      (∃ c after, rest = c :: after ∧ pySpace c = true) ∧
      (EndsWith "client".toList rest ∨ word = "client".toList ∧ Blank rest) := by
  obtain ⟨word, rest, hnext, hhead, hend⟩ := h.nextWord isWord_client
  refine ⟨word, rest, fun more => ?_, hhead, hend⟩
  obtain ⟨c, tail, rfl, hc⟩ := hspace
  rw [List.cons_append, spacedWord_cons hc]
  exact hnext more

theorem protoSuffix_append (h : EndsWith "client".toList text)
    (hspace : ∃ c rest, text = c :: rest ∧ pySpace c = true) (more : Text) :
    protoSuffix (text ++ more) = ((protoSuffix text).1, (protoSuffix text).2 ++ more) := by
  obtain ⟨word, rest, hnext, -, -⟩ := EndsWith.spacedWord h hspace
  have hhere := hnext []
  rw [List.append_nil, List.append_nil] at hhere
  unfold protoSuffix
  rw [hnext more, hhere]
  dsimp only
  cases protoAt word <;> rfl

theorem protoSuffix_of_not_space (h : pySpace c = false) (text : Text) :
    protoSuffix (c :: text) = (none, c :: text) := by
  have hnone : Lib.spacedWord (c :: text) = none := by
    unfold Lib.spacedWord
    rw [List.head?_cons, Option.any_some, if_neg (by simp [h])]
  unfold protoSuffix
  rw [hnone]

theorem portAt_append (wide : Char → Bool) (h : EndsWith "client".toList text ∨ Blank text)
    (hspace : ∃ c rest, text = c :: rest ∧ pySpace c = true) (more : Text) :
    (portAt wide (text ++ ("remote".toList ++ ' ' :: more))).map
        (fun port => (port.1, protoSuffix port.2)) =
      (portAt wide text).map fun port => (port.1, (protoSuffix port.2).1,
        (protoSuffix port.2).2 ++ ("remote".toList ++ ' ' :: more)) := by
  rcases h with hend | hblank
  · obtain ⟨word, rest, hnext, hhead, hrest⟩ := EndsWith.spacedWord hend hspace
    have hhere := hnext []
    rw [List.append_nil, List.append_nil] at hhere
    unfold portAt
    rw [hnext, hhere]
    dsimp only
    cases hdigits : digitsAt wide word with
    | none => rfl
    | some digits =>
        obtain ⟨port, left⟩ := digits
        have hleft : ∀ c ∈ left, pySpace c = false := fun c hc =>
          pySpace_of_nextWord (nextWord_of_spacedWord hhere) c (mem_of_digitsAt hdigits hc)
        have hend : EndsWith "client".toList rest := by
          refine hrest.resolve_right fun hclient => ?_
          have hnone : digitsAt wide "client".toList = none := rfl
          rw [hclient.1, hnone] at hdigits
          cases hdigits
        have hsuffix : protoSuffix (left ++ (rest ++ ("remote".toList ++ ' ' :: more))) =
            ((protoSuffix (left ++ rest)).1,
              (protoSuffix (left ++ rest)).2 ++ ("remote".toList ++ ' ' :: more)) := by
          cases left with
          | nil => exact protoSuffix_append hend hhead _
          | cons c tail =>
              have hc := hleft c List.mem_cons_self
              rw [List.cons_append, List.cons_append, protoSuffix_of_not_space hc,
                protoSuffix_of_not_space hc, List.cons_append, List.append_assoc]
        simp only [Option.map_some, hsuffix]
  · obtain ⟨c, tail, rfl, hc⟩ := hspace
    have hnone : Lib.spacedWord (c :: tail) = none := by
      rw [spacedWord_cons hc, nextWord_of_blank hblank]
    have hremote : Lib.spacedWord (c :: tail ++ ("remote".toList ++ ' ' :: more)) =
        some ("remote".toList, ' ' :: more) := by
      rw [List.cons_append, spacedWord_cons hc, ← List.cons_append, nextWord_blank hblank]
      exact nextWord_word isWord_remote fun d hd => by cases hd; decide
    have hdigits : digitsAt wide "remote".toList = none := rfl
    unfold portAt
    rw [hnone, hremote]
    dsimp only
    rw [hdigits]
    rfl

theorem remoteAt_append (h : EndsWith "client".toList text) (more : Text) :
    remoteAt wide (text ++ ("remote".toList ++ ' ' :: more)) =
      (remoteAt wide text).map fun found => (found.1, found.2 ++ ("remote".toList ++ ' ' :: more)) := by
  obtain ⟨word, rest, hnext, hhead, hend⟩ := h.nextWord isWord_client
  have hhere := hnext []
  rw [List.append_nil, List.append_nil] at hhere
  unfold remoteAt
  rw [hnext, hhere]
  dsimp only
  by_cases hword : word = "remote".toList
  · have hend : EndsWith "client".toList rest := by
      refine hend.resolve_right fun hclient => ?_
      rw [hclient.1] at hword
      exact absurd hword (by decide)
    obtain ⟨host, rest', hnext', hhead', hend'⟩ := EndsWith.spacedWord hend hhead
    have hhere' := hnext' []
    rw [List.append_nil, List.append_nil] at hhere'
    have hport := portAt_append wide (hend'.imp_right And.right) hhead' more
    have hremote := congrArg (Option.map fun port =>
      ((⟨host, port.1, port.2.1⟩ : Remote), port.2.2)) hport
    rw [if_neg (not_not.mpr hword), if_neg (not_not.mpr hword), hnext', hhere']
    simpa only [Option.map_map, Function.comp_def] using hremote
  · rw [if_pos hword, if_pos hword]
    rfl

end Scan

section Files

variable {wide : Char → Bool}

theorem unlines_append (lines others : List Text) :
    unlines (lines ++ others) = unlines lines ++ unlines others := List.flatMap_append

theorem getLast?_unlines (h : unlines lines ≠ []) :
    (unlines lines).getLast? = some '\n' := by
  have hne : lines ≠ [] := fun hnil => h (by rw [hnil]; rfl)
  rw [← joinWith_unlines hne, List.getLast?_concat]

theorem exists_of_pyStrip {line : Text} (h : pyStrip line = word) :
    ∃ lead trail, line = lead ++ word ++ trail ∧ Blank lead ∧ Blank trail := by
  refine ⟨(line.rdropWhile pySpace).takeWhile pySpace, line.rtakeWhile pySpace, ?_,
    fun c hc => List.mem_takeWhile_imp hc, fun c hc => List.mem_rtakeWhile_imp hc⟩
  rw [← h, pyStrip, List.takeWhile_append_dropWhile, List.rdropWhile_append_rtakeWhile]

theorem endsWith_client {line before after : Text} (hline : '\n' ∉ line)
    (hclient : pyStrip line = "client".toList)
    (htext : unlines (lines ++ [line]) = before ++ after) (hne : after ≠ [])
    (hbefore : before ≠ [] → before.getLast? = some '\n') :
    EndsWith "client".toList after := by
  obtain ⟨front, hafter, hfront⟩ : ∃ front, after = front ++ (line ++ ['\n']) ∧
      (front = [] ∨ front.getLast? = some '\n') := by
    have hlast : unlines [line] = line ++ ['\n'] := List.flatMap_singleton _ _
    rw [unlines_append, hlast, List.append_eq_append_iff] at htext
    rcases htext with ⟨inside, hstart, hrest⟩ | ⟨front, hstart, hrest⟩
    · refine ⟨[], ?_, .inl rfl⟩
      by_cases hinside : inside = []
      · rw [hrest, hinside, List.nil_append, List.nil_append]
      · -- no line starts inside the last one
        have hends : inside.getLast? = some '\n' := by
          rw [← hbefore (by rw [hstart]; simp [hinside]), hstart,
            List.getLast?_append_of_ne_nil _ hinside]
        have hmem := List.mem_of_getLast? hends
        rcases List.append_eq_append_iff.mp hrest with ⟨more, hmore, hnewline⟩ | ⟨more, hmore, -⟩
        · have hnil : more = [] := by
            rcases List.singleton_eq_append_iff.mp hnewline with hsplit | hsplit
            · exact hsplit.1
            · exact absurd hsplit.2 hne
          rw [hmore, hnil, List.append_nil] at hmem
          exact absurd hmem hline
        · rw [hmore] at hline
          exact absurd (List.mem_append_left _ hmem) hline
    · refine ⟨front, hrest, ?_⟩
      by_cases hnil : front = []
      · exact .inl hnil
      · right
        rw [← List.getLast?_append_of_ne_nil before hnil, ← hstart]
        refine getLast?_unlines fun hlines => hnil ?_
        rw [hlines] at hstart
        exact (List.append_eq_nil_iff.mp hstart.symm).2
  obtain ⟨lead, trail, hstrip, hlead, htrail⟩ := exists_of_pyStrip hclient
  refine ⟨front ++ lead, trail ++ ['\n'], ?_, by simp, ?_, ?_⟩
  · rw [hafter, hstrip]
    simp only [List.append_assoc]
  · intro c hc
    rcases List.mem_append.mp hc with hmem | hmem
    · exact htrail c hmem
    · rw [List.mem_singleton.mp hmem]
      decide
  · by_cases hnil : lead = []
    · rw [hnil, List.append_nil]
      exact hfront.imp_right fun hlast => ⟨'\n', hlast, by decide⟩
    · right
      obtain ⟨c, hc⟩ := Option.isSome_iff_exists.mp (List.getLast?_isSome.mpr hnil)
      refine ⟨c, ?_, hlead c (List.mem_of_getLast? hc)⟩
      rw [List.getLast?_append_of_ne_nil _ hnil, hc]

theorem clientIndex_cases (lines : List Text) :
    lines.take (clientIndex lines) = [] ∨ ∃ init line,
      lines.take (clientIndex lines) = init ++ [line] ∧ line ∈ lines ∧
        pyStrip line = "client".toList := by
  unfold clientIndex
  cases hfind : lines.findIdx? fun line => pyStrip line = "client".toList with
  | none => exact .inl rfl
  | some i =>
      right
      obtain ⟨hi, hclient, -⟩ := List.findIdx?_eq_some_iff_getElem.mp hfind
      refine ⟨lines.take i, lines[i], ?_, List.getElem_mem hi, of_decide_eq_true hclient⟩
      exact List.take_succ_eq_append_getElem hi

variable {host : Text} {port : Socket → Text}

theorem findAllLines_remoteLines (hhost : IsWord host) {sockets : List Socket}
    (hport : ∀ socket ∈ sockets, IsPort wide (port socket)) (rest : Text) :
    findAllLines (remoteAt wide) (unlines (sockets.map fun socket =>
        remoteLine host (port socket) socket.proto) ++ rest) =
      sockets.map (fun socket => ⟨host, port socket, some socket.proto⟩) ++
        findAllLines (remoteAt wide) rest := by
  induction sockets with
  | nil => rfl
  | cons socket more ih =>
      have hrest := ih fun other ho => hport other (List.mem_cons_of_mem _ ho)
      have hone := hport socket List.mem_cons_self
      rw [List.map_cons, unlines_cons, List.append_assoc, List.cons_append,
        findAllLines_line ?_ ?_ (remoteAt_remoteLine hhost hone socket.proto _), hrest]
      · rfl
      · rw [← List.append_nil (remoteLine _ _ _), remoteLine_append]
        simp
      · intro hnewline
        exact absurd (lineBreak_remoteLine hhost hone.isWord socket.proto '\n' hnewline) (by decide)

theorem findAllLines_written (hhost : IsWord host)
    (hlines : ∀ line ∈ lines, '\n' ∉ line) {sockets : List Socket} (hne : sockets ≠ [])
    (hport : ∀ socket ∈ sockets, IsPort wide (port socket)) :
    findAllLines (remoteAt wide) (unlines (lines.take (clientIndex lines) ++
        (sockets.map fun socket => remoteLine host (port socket) socket.proto) ++
        lines.drop (clientIndex lines))) =
      findAllLines (remoteAt wide) (unlines (lines.take (clientIndex lines))) ++
        (sockets.map fun socket => ⟨host, port socket, some socket.proto⟩) ++
        findAllLines (remoteAt wide) (unlines (lines.drop (clientIndex lines))) := by
  rw [unlines_append, unlines_append, List.append_assoc, List.append_assoc]
  have hrest := findAllLines_remoteLines hhost hport (unlines (lines.drop (clientIndex lines)))
  rw [← hrest]
  obtain ⟨more, hmore⟩ : ∃ more, unlines (sockets.map fun socket =>
      remoteLine host (port socket) socket.proto) ++ unlines (lines.drop (clientIndex lines)) =
        "remote".toList ++ ' ' :: more := by
    obtain ⟨socket, others, rfl⟩ := List.exists_cons_of_ne_nil hne
    rw [List.map_cons, unlines_cons, List.append_assoc, remoteLine_append]
    exact ⟨_, rfl⟩
  rw [hmore]
  rcases clientIndex_cases lines with hnil | ⟨init, line, htake, hmem, hclient⟩
  · rw [hnil]
    rfl
  · have hlen (after : Text) (found : Remote) (rest : Text)
        (h : remoteAt wide after = some (found, rest)) : rest.length < after.length :=
      length_remoteAt h
    refine findAllFrom_append ?_ hlen (Nat.zero_le _) (fun _ => rfl) getLast?_unlines
    intro before after htext hafter _ hbefore
    rw [htake] at htext
    exact remoteAt_append (endsWith_client (hlines line hmem) hclient htext hafter hbefore) more

end Files

end OpenvpnServer.Network
