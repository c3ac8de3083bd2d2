import OpenvpnServer.Lib.Json

namespace OpenvpnServer.Lib

variable {n fuel : Nat} {c : Char} {text : Text} {value : Json}

namespace Json

section Strings

theorem hex4?_digits (h : n < 65536) :
    hex4? (Nat.digitChar (n / 4096 % 16)) (Nat.digitChar (n / 256 % 16))
      (Nat.digitChar (n / 16 % 16)) (Nat.digitChar (n % 16)) = some n := by
  unfold hex4?
  rw [hexDigit?_digitChar (by omega), hexDigit?_digitChar (by omega),
    hexDigit?_digitChar (by omega), hexDigit?_digitChar (by omega)]
  simp only [Option.some.injEq]
  omega

theorem scanString_of_scanEscape {rest : Text}
    (h : scanEscape text = some (c, rest)) (fuel : Nat) :
    scanString (fuel + 1) ('\\' :: text) =
      (scanString fuel rest).map fun (text, rest) => (c :: text, rest) := by
  simp [scanString, h]

attribute [local simp] scanEscape scanString

theorem scanEscape_hex4 (h : n < 65536) (hplain : ¬(55296 ≤ n ∧ n ≤ 57343))
    (rest : Text) : scanEscape ('u' :: hex4 n ++ rest) = some (Char.ofNat n, rest) := by
  simp only [hex4, List.cons_append, List.nil_append, scanEscape, hex4?_digits h]
  rw [if_neg (by omega), if_neg (by omega)]

theorem scanEscape_surrogates {m : Nat} (hn : n < 1024) (hm : m < 1024) (rest : Text) :
    scanEscape ('u' :: hex4 (55296 + n) ++ (uEscape (56320 + m) ++ rest)) =
      some (Char.ofNat (65536 + n * 1024 + m), rest) := by
  have hhigh : 55296 + n < 65536 := by omega
  have hlow : 56320 + m < 65536 := by omega
  simp only [hex4, uEscape, List.cons_append, List.nil_append, scanEscape, hex4?_digits hhigh,
    hex4?_digits hlow]
  rw [if_pos (by omega), if_pos (by omega)]
  simp

theorem scanEscape_number (c : Char) (rest : Text) :
    ∃ text, (if c.toNat < 65536 then uEscape c.toNat
        else uEscape (55296 + (c.toNat - 65536) / 1024) ++
          uEscape (56320 + (c.toNat - 65536) % 1024)) ++ rest = '\\' :: text ∧
      scanEscape text = some (c, rest) := by
  have hvalid : c.toNat < 55296 ∨ 57343 < c.toNat ∧ c.toNat < 1114112 := c.valid
  by_cases hplane : c.toNat < 65536
  · rw [if_pos hplane]
    refine ⟨'u' :: hex4 c.toNat ++ rest, rfl, ?_⟩
    rw [scanEscape_hex4 hplane (by omega), Char.ofNat_toNat]
  · rw [if_neg hplane, List.append_assoc]
    refine ⟨'u' :: hex4 (55296 + (c.toNat - 65536) / 1024) ++
      (uEscape (56320 + (c.toNat - 65536) % 1024) ++ rest), rfl, ?_⟩
    have hdiv : (c.toNat - 65536) / 1024 < 1024 := by omega
    have hmod : (c.toNat - 65536) % 1024 < 1024 := Nat.mod_lt _ (by decide)
    have hsum : 65536 + (c.toNat - 65536) / 1024 * 1024 + (c.toNat - 65536) % 1024 = c.toNat := by
      omega
    rw [scanEscape_surrogates hdiv hmod, hsum, Char.ofNat_toNat]

theorem scanString_escapeChar (c : Char) (fuel : Nat) (rest : Text) :
    scanString (fuel + 1) (escapeChar c ++ rest) =
      (scanString fuel rest).map fun (text, rest) => (c :: text, rest) := by
  have hback : ∀ d, scanEscape (d :: rest) = some (c, rest) →
      scanString (fuel + 1) ('\\' :: d :: rest) =
        (scanString fuel rest).map fun (text, rest) => (c :: text, rest) :=
    fun d hd => scanString_of_scanEscape hd fuel
  unfold escapeChar
  by_cases hquote : c = '"'
  · rw [if_pos hquote]
    exact hback '"' (by simp [simpleEscape, hquote])
  rw [if_neg hquote]
  by_cases hbackslash : c = '\\'
  · rw [if_pos hbackslash]
    exact hback '\\' (by simp [simpleEscape, hbackslash])
  rw [if_neg hbackslash]
  by_cases hn : c = '\n'
  · rw [if_pos hn]
    exact hback 'n' (by simp [simpleEscape, hn])
  rw [if_neg hn]
  by_cases hr : c = '\r'
  · rw [if_pos hr]
    exact hback 'r' (by simp [simpleEscape, hr])
  rw [if_neg hr]
  by_cases ht : c = '\t'
  · rw [if_pos ht]
    exact hback 't' (by simp [simpleEscape, ht])
  rw [if_neg ht]
  by_cases hf : c = '\x0c'
  · rw [if_pos hf]
    exact hback 'f' (by simp [simpleEscape, hf])
  rw [if_neg hf]
  by_cases hb : c = '\x08'
  · rw [if_pos hb]
    exact hback 'b' (by simp [simpleEscape, hb])
  rw [if_neg hb]
  by_cases hprintable : 32 ≤ c.toNat ∧ c.toNat ≤ 126
  · have hcontrol : ¬c.toNat < 32 := by omega
    rw [if_pos hprintable]
    simp [hquote, hbackslash, hcontrol]
  rw [if_neg hprintable]
  obtain ⟨text, htext, hscan⟩ := scanEscape_number c rest
  rw [htext]
  exact scanString_of_scanEscape hscan fuel

theorem scanString_escaped (text : Text) (h : text.length < fuel) (rest : Text) :
    scanString fuel (text.flatMap escapeChar ++ '"' :: rest) = some (text, rest) := by
  induction text generalizing fuel with
  | nil =>
      obtain ⟨k, rfl⟩ := Nat.exists_eq_add_one_of_ne_zero (Nat.ne_zero_of_lt h)
      simp
  | cons c more ih =>
      obtain ⟨k, rfl⟩ := Nat.exists_eq_add_one_of_ne_zero (Nat.ne_zero_of_lt h)
      have hk : more.length < k := Nat.lt_of_succ_lt_succ h
      rw [List.flatMap_cons, List.append_assoc, scanString_escapeChar, ih hk]
      rfl

theorem length_le_length_escaped (text : Text) : text.length ≤ (text.flatMap escapeChar).length := by
  have hone : ∀ c, 1 ≤ (escapeChar c).length := by
    intro c
    unfold escapeChar uEscape
    repeat' split
    all_goals simp
  induction text with
  | nil => simp
  | cons c rest ih =>
      have hc := hone c
      rw [List.flatMap_cons, List.length_append, List.length_cons]
      omega

theorem scanString_quote (text rest : Text) :
    scanString ((text.flatMap escapeChar ++ '"' :: rest).length + 1)
      (text.flatMap escapeChar ++ '"' :: rest) = some (text, rest) := by
  apply scanString_escaped
  have hle := length_le_length_escaped text
  rw [List.length_append]
  omega

end Strings

section Values

mutual

-- Values of texts, truth values, lists and dictionaries: the keys of an object
-- are different, and there are no numbers.
def WellFormed : Json → Prop
  | num _ => False
  | arr items => WellFormedItems items
  | obj members => (members.map Prod.fst).Nodup ∧ WellFormedMembers members
  | _ => True

def WellFormedItems : List Json → Prop
  | [] => True
  | item :: items => WellFormed item ∧ WellFormedItems items

def WellFormedMembers : List (Text × Json) → Prop
  | [] => True
  | (_, value) :: members => WellFormed value ∧ WellFormedMembers members

end

mutual

def depth : Json → Nat
  | arr items => 1 + depthItems items
  | obj members => 1 + depthMembers members
  | _ => 1

def depthItems : List Json → Nat
  | [] => 0
  | item :: items => 1 + max (depth item) (depthItems items)

def depthMembers : List (Text × Json) → Nat
  | [] => 0
  | (_, value) :: members => 1 + max (depth value) (depthMembers members)

end

attribute [local simp] WellFormed depth

theorem skipSpace_cons (h : isSpace c = false) (rest : Text) :
    skipSpace (c :: rest) = c :: rest := List.dropWhile_cons_of_neg (by simp [h])

theorem setEntry_of_not_mem {key : Text} (value : Json) {entries : List (Text × Json)}
    (h : key ∉ entries.map Prod.fst) :
    Dict.setEntry key value entries = entries ++ [(key, value)] := by
  induction entries with
  | nil => rfl
  | cons entry rest ih =>
      rw [List.map_cons, List.mem_cons, not_or] at h
      rw [Dict.setEntry, if_neg (fun he => h.1 he.symm), ih h.2, List.cons_append]

theorem ofPairs_of_nodup {members : List (Text × Json)} (h : (members.map Prod.fst).Nodup) :
    ofPairs members = .obj members := by
  have hfold : ∀ entries : List (Text × Json), ((entries ++ members).map Prod.fst).Nodup →
      members.foldl (fun entries pair => Dict.setEntry pair.1 pair.2 entries) entries =
        entries ++ members := by
    clear h
    induction members with
    | nil => simp
    | cons member rest ih =>
        intro entries hnodup
        have hnew : member.1 ∉ entries.map Prod.fst := by
          intro hmem
          rw [List.map_append, List.nodup_append] at hnodup
          exact hnodup.2.2 _ hmem _ (by simp) rfl
        rw [List.foldl_cons, setEntry_of_not_mem _ hnew, ih]
        · simp
        · simpa using hnodup
  unfold ofPairs
  rw [hfold [] (by simpa using h), List.nil_append]

section Gap

variable {gap : Text}

theorem dumpsWith_head (gap : Text) (h : WellFormed value) :
    ∃ c rest, dumpsWith gap value = c :: rest ∧ isSpace c = false ∧ c ≠ ']' := by
  cases value with
  | null => exact ⟨'n', _, by rw [dumpsWith]; rfl, by decide, by decide⟩
  | bool b =>
      cases b with
      | true => exact ⟨'t', _, by rw [dumpsWith]; rfl, by decide, by decide⟩
      | false => exact ⟨'f', _, by rw [dumpsWith]; rfl, by decide, by decide⟩
  | num literal => exact absurd h (by simp [WellFormed])
  | str text => exact ⟨'"', _, by rw [dumpsWith]; rfl, by decide, by decide⟩
  | arr items =>
      cases items with
      | nil => exact ⟨'[', _, by rw [dumpsWith], by decide, by decide⟩
      | cons item items => exact ⟨'[', _, by rw [dumpsWith]; rfl, by decide, by decide⟩
  | obj members =>
      cases members with
      | nil => exact ⟨'{', _, by rw [dumpsWith], by decide, by decide⟩
      | cons member members =>
          obtain ⟨key, value⟩ := member
          exact ⟨'{', _, by rw [dumpsWith]; rfl, by decide, by decide⟩

-- Every part of a value is read back with this much fuel, whatever follows it.
structure ReadsBack (gap : Text) (fuel : Nat) : Prop where
  value : ∀ value, WellFormed value → depth value ≤ fuel → ∀ rest,
    scanValue fuel (dumpsWith gap value ++ rest) = some (value, rest)
  items : ∀ item items, WellFormed item → WellFormedItems items →
    depthItems (item :: items) ≤ fuel → ∀ rest,
    scanItems fuel (dumpsWith gap item ++ dumpsItemsWith gap items ++ rest) =
      some (item :: items, rest)
  members : ∀ key value members, WellFormed value → WellFormedMembers members →
    depthMembers ((key, value) :: members) ≤ fuel → ∀ rest,
    scanMembers fuel
        (quote key ++ ':' :: (gap ++ dumpsWith gap value) ++ dumpsMembersWith gap members ++ rest) =
      some ((key, value) :: members, rest)

theorem depth_pos (value : Json) : 0 < depth value := by
  cases value <;> simp only [depth] <;> omega

theorem skipSpace_dumps (gap : Text) (h : WellFormed value) (rest : Text) :
    skipSpace (dumpsWith gap value ++ rest) = dumpsWith gap value ++ rest := by
  obtain ⟨c, more, hdumps, hspace, -⟩ := dumpsWith_head gap h
  rw [hdumps, List.cons_append, skipSpace_cons hspace]

theorem skipSpace_gap (hgap : ∀ c ∈ gap, isSpace c = true) (rest : Text) :
    skipSpace (gap ++ rest) = skipSpace rest := List.dropWhile_append_of_pos hgap

theorem ReadsBack.scanValue_succ (h : ReadsBack gap fuel) (value : Json)
    (hwf : WellFormed value) (hfuel : depth value ≤ fuel + 1) (rest : Text) :
    scanValue (fuel + 1) (dumpsWith gap value ++ rest) = some (value, rest) := by
  match value, hwf, hfuel with
  | .null, _, _ => simp [dumpsWith, scanValue, scanLiteral, literals]
  | .bool true, _, _ => simp [dumpsWith, scanValue, scanLiteral, literals]
  | .bool false, _, _ => simp [dumpsWith, scanValue, scanLiteral, literals]
  | .num _, hwf, _ => exact absurd hwf (by simp [WellFormed])
  | .str text, _, _ =>
      rw [dumpsWith, quote, List.append_assoc, List.singleton_append, List.cons_append]
      rw [scanValue, if_pos rfl, scanString_quote]
      rfl
  | .arr [], _, _ => simp [dumpsWith, scanValue, skipSpace, isSpace]
  | .arr (item :: items), hwf, hfuel =>
      simp only [depth] at hfuel
      simp only [WellFormed, WellFormedItems] at hwf
      have hitems := h.items item items hwf.1 hwf.2 (by omega) rest
      have hskip := skipSpace_dumps gap hwf.1 (dumpsItemsWith gap items ++ rest)
      have hhead : (dumpsWith gap item ++ dumpsItemsWith gap items ++ rest).head? ≠ some ']' := by
        obtain ⟨c, more, hdumps, -, hclose⟩ := dumpsWith_head gap hwf.1
        rw [hdumps, List.cons_append, List.cons_append, List.head?_cons]
        simpa using hclose
      rw [← List.append_assoc] at hskip
      rw [dumpsWith, List.cons_append, List.cons_append, scanValue, if_neg (by decide),
        if_neg (by decide), if_pos rfl, hskip, if_neg hhead, hitems]
      rfl
  | .obj [], _, _ => simp [dumpsWith, scanValue, skipSpace, isSpace]
  | .obj ((key, value) :: members), hwf, hfuel =>
      simp only [depth] at hfuel
      simp only [WellFormed, WellFormedMembers] at hwf
      have hmembers := h.members key value members hwf.2.1 hwf.2.2 (by omega) rest
      have hskip : skipSpace (quote key ++ ':' :: (gap ++ dumpsWith gap value) ++
          dumpsMembersWith gap members ++ rest) =
          quote key ++ ':' :: (gap ++ dumpsWith gap value) ++ dumpsMembersWith gap members ++
            rest := rfl
      have hhead : (quote key ++ ':' :: (gap ++ dumpsWith gap value) ++
          dumpsMembersWith gap members ++ rest).head? ≠ some '}' := by
        simp [quote]
      rw [dumpsWith, List.cons_append, List.cons_append, List.cons_append, scanValue,
        if_neg (by decide), if_pos rfl, hskip, if_neg hhead, hmembers]
      exact congrArg (fun value => some (value, rest)) (ofPairs_of_nodup hwf.1)

theorem ReadsBack.scanItems_succ (h : ReadsBack gap fuel)
    (hgap : ∀ c ∈ gap, isSpace c = true) (item : Json) (items : List Json)
    (hitem : WellFormed item) (hitems : WellFormedItems items)
    (hfuel : depthItems (item :: items) ≤ fuel + 1) (rest : Text) :
    scanItems (fuel + 1) (dumpsWith gap item ++ dumpsItemsWith gap items ++ rest) =
      some (item :: items, rest) := by
  simp only [depthItems] at hfuel
  rw [List.append_assoc, scanItems, h.value item hitem (by omega)]
  cases items with
  | nil => simp [dumpsItemsWith, skipSpace, isSpace]
  | cons next more =>
      simp only [WellFormedItems] at hitems
      have hnext := h.items next more hitems.1 hitems.2 (by omega) rest
      have hskip := skipSpace_dumps gap hitems.1 (dumpsItemsWith gap more ++ rest)
      rw [← List.append_assoc] at hskip
      rw [dumpsItemsWith, List.cons_append, List.cons_append, List.append_assoc, List.append_assoc]
      rw [List.append_assoc] at hskip hnext
      simp only [skipSpace_cons (c := ',') (by decide), skipSpace_gap hgap, hskip, hnext,
        Option.map_some]

theorem ReadsBack.scanMembers_succ (h : ReadsBack gap fuel)
    (hgap : ∀ c ∈ gap, isSpace c = true) (key : Text) (value : Json)
    (members : List (Text × Json)) (hvalue : WellFormed value) (hmembers : WellFormedMembers members)
    (hfuel : depthMembers ((key, value) :: members) ≤ fuel + 1) (rest : Text) :
    scanMembers (fuel + 1)
        (quote key ++ ':' :: (gap ++ dumpsWith gap value) ++ dumpsMembersWith gap members ++ rest) =
      some ((key, value) :: members, rest) := by
  simp only [depthMembers] at hfuel
  have hread := h.value value hvalue (by omega) (dumpsMembersWith gap members ++ rest)
  have hquote : quote key ++ ':' :: (gap ++ dumpsWith gap value) ++ dumpsMembersWith gap members ++
      rest = '"' :: (key.flatMap escapeChar ++
        '"' :: ':' :: (gap ++ (dumpsWith gap value ++ (dumpsMembersWith gap members ++ rest)))) := by
    simp [quote]
  rw [hquote, scanMembers]
  simp only [scanString_quote, skipSpace_cons (c := ':') (by decide), skipSpace_gap hgap,
    skipSpace_dumps gap hvalue, hread]
  cases members with
  | nil => simp [dumpsMembersWith, skipSpace, isSpace]
  | cons member more =>
      obtain ⟨nextKey, next⟩ := member
      simp only [WellFormedMembers] at hmembers
      have hnext := h.members nextKey next more hmembers.1 hmembers.2 (by omega) rest
      have hskip : skipSpace (quote nextKey ++ ':' :: (gap ++ dumpsWith gap next) ++
          dumpsMembersWith gap more ++ rest) =
          quote nextKey ++ ':' :: (gap ++ dumpsWith gap next) ++ dumpsMembersWith gap more ++
            rest := rfl
      have hshape : dumpsMembersWith gap ((nextKey, next) :: more) ++ rest =
          ',' :: (gap ++ (quote nextKey ++ ':' :: (gap ++ dumpsWith gap next) ++
            dumpsMembersWith gap more ++ rest)) := by
        simp [dumpsMembersWith]
      rw [hshape]
      simp only [skipSpace_cons (c := ',') (by decide), skipSpace_gap hgap, hskip, hnext,
        Option.map_some]

-- The induction is on the fuel, which every call has less of.
theorem readsBack (hgap : ∀ c ∈ gap, isSpace c = true) (fuel : Nat) : ReadsBack gap fuel := by
  induction fuel with
  | zero =>
      refine ⟨fun value _ hfuel => ?_, fun item items _ _ hfuel => ?_,
        fun key value members _ _ hfuel => ?_⟩
      · exact absurd (depth_pos value) (by omega)
      · simp [depthItems] at hfuel
      · simp [depthMembers] at hfuel
  | succ fuel ih => exact ⟨ih.scanValue_succ, ih.scanItems_succ hgap, ih.scanMembers_succ hgap⟩

theorem length_dumps_pos (gap : Text) (h : WellFormed value) :
    0 < (dumpsWith gap value).length := by
  obtain ⟨c, rest, hdumps, -, -⟩ := dumpsWith_head gap h
  rw [hdumps]
  exact Nat.succ_pos _

mutual

theorem depth_le_length (value : Json) (h : WellFormed value) :
    depth value ≤ (dumpsWith gap value).length := by
  have hpos := length_dumps_pos gap h
  match value, h with
  | .null, _ | .bool _, _ | .num _, _ | .str _, _ => exact hpos
  | .arr [], _ => simp [depth, depthItems, dumpsWith]
  | .arr (item :: items), h =>
      simp only [WellFormed, WellFormedItems] at h
      have hitem := depth_le_length item h.1
      have hitems := depthItems_lt_length items h.2
      have hone := length_dumps_pos gap h.1
      simp only [depth, depthItems, dumpsWith, List.length_append, List.length_cons]
      omega
  | .obj [], _ => simp [depth, depthMembers, dumpsWith]
  | .obj ((key, value) :: members), h =>
      simp only [WellFormed, WellFormedMembers] at h
      have hvalue := depth_le_length value h.2.1
      have hmembers := depthMembers_lt_length members h.2.2
      have hone := length_dumps_pos gap h.2.1
      simp only [depth, depthMembers, dumpsWith, List.length_append, List.length_cons]
      omega

theorem depthItems_lt_length (items : List Json) (h : WellFormedItems items) :
    depthItems items < (dumpsItemsWith gap items).length := by
  match items, h with
  | [], _ => simp [depthItems, dumpsItemsWith]
  | item :: items, h =>
      simp only [WellFormedItems] at h
      have hitem := depth_le_length item h.1
      have hitems := depthItems_lt_length items h.2
      simp only [depthItems, dumpsItemsWith, List.length_append, List.length_cons]
      omega

theorem depthMembers_lt_length (members : List (Text × Json)) (h : WellFormedMembers members) :
    depthMembers members < (dumpsMembersWith gap members).length := by
  match members, h with
  | [], _ => simp [depthMembers, dumpsMembersWith]
  | (key, value) :: members, h =>
      simp only [WellFormedMembers] at h
      have hvalue := depth_le_length value h.1
      have hmembers := depthMembers_lt_length members h.2
      simp only [depthMembers, dumpsMembersWith, List.length_append, List.length_cons]
      omega

end

theorem scanValue_dumpsWith (hgap : ∀ c ∈ gap, isSpace c = true)
    (h : WellFormed value) :
    scanValue (dumpsWith gap value).length (skipSpace (dumpsWith gap value)) =
      some (value, []) := by
  have hread := (readsBack hgap (dumpsWith gap value).length).value value h
    (depth_le_length value h) []
  have hskip := skipSpace_dumps gap h []
  rw [List.append_nil] at hread hskip
  rw [hskip, hread]

theorem loads_dumpsWith (hgap : ∀ c ∈ gap, isSpace c = true)
    (h : WellFormed value) : loads (dumpsWith gap value) = some value := by
  unfold loads
  rw [scanValue_dumpsWith hgap h]
  rfl

end Gap

mutual

theorem dumps_eq_dumpsWith (value : Json) : dumps value = dumpsWith [] value := by
  match value with
  | .null | .bool true | .bool false | .num _ | .str _ | .arr [] | .obj [] => simp [dumps, dumpsWith]
  | .arr (item :: items) =>
      rw [dumps, dumpsWith, dumps_eq_dumpsWith item, dumpsItems_eq_dumpsItemsWith items]
  | .obj ((key, value) :: members) =>
      rw [dumps, dumpsWith, dumps_eq_dumpsWith value, dumpsMembers_eq_dumpsMembersWith members,
        List.nil_append]

theorem dumpsItems_eq_dumpsItemsWith (items : List Json) :
    dumpsItems items = dumpsItemsWith [] items := by
  match items with
  | [] => rw [dumpsItems, dumpsItemsWith]
  | item :: items =>
      rw [dumpsItems, dumpsItemsWith, dumps_eq_dumpsWith item, dumpsItems_eq_dumpsItemsWith items,
        List.nil_append]

theorem dumpsMembers_eq_dumpsMembersWith (members : List (Text × Json)) :
    dumpsMembers members = dumpsMembersWith [] members := by
  match members with
  | [] => rw [dumpsMembers, dumpsMembersWith]
  | (key, value) :: members =>
      rw [dumpsMembers, dumpsMembersWith, dumps_eq_dumpsWith value,
        dumpsMembers_eq_dumpsMembersWith members, List.nil_append, List.nil_append]

end

theorem loads_dumps (h : WellFormed value) : loads (dumps value) = some value := by
  rw [dumps_eq_dumpsWith]
  exact loads_dumpsWith (by simp) h

theorem scanValue_dumpsSpaced (h : WellFormed value) :
    scanValue (dumpsSpaced value).length (skipSpace (dumpsSpaced value)) = some (value, []) :=
  scanValue_dumpsWith (by simp [isSpace]) h

end Values

section Ascii

-- What is written is printable ASCII, so that it is one line to every reader.
def Printable (text : Text) : Prop := ∀ c ∈ text, 32 ≤ c.toNat ∧ c.toNat ≤ 126

theorem printable_of_all
    (h : (text.all fun c => decide (32 ≤ c.toNat ∧ c.toNat ≤ 126)) = true) : Printable text :=
  List.all_iff_forall_prop.mp h

theorem printable_append {other : Text} (h : Printable text) (h' : Printable other) :
    Printable (text ++ other) := by
  intro c hc
  rcases List.mem_append.mp hc with hleft | hright
  · exact h c hleft
  · exact h' c hright

theorem printable_cons (hc : 32 ≤ c.toNat ∧ c.toNat ≤ 126)
    (h : Printable text) : Printable (c :: text) := by
  intro d hd
  rcases List.mem_cons.mp hd with rfl | hmem
  · exact hc
  · exact h d hmem

theorem printable_uEscape (n : Nat) : Printable (uEscape n) := by
  have hdigit : ∀ d < 16, 32 ≤ (Nat.digitChar d).toNat ∧ (Nat.digitChar d).toNat ≤ 126 := by decide
  intro c hc
  simp only [uEscape, hex4, List.mem_cons, List.not_mem_nil, or_false] at hc
  rcases hc with rfl | rfl | rfl | rfl | rfl | rfl
  · decide
  · decide
  all_goals exact hdigit _ (Nat.mod_lt _ (by decide))

theorem printable_escapeChar (c : Char) : Printable (escapeChar c) := by
  unfold escapeChar
  repeat' split
  case isFalse.isFalse.isFalse.isFalse.isFalse.isFalse.isFalse.isTrue h =>
    intro d hd
    rw [List.mem_singleton.mp hd]
    exact h
  all_goals first
    | exact printable_uEscape _
    | exact printable_append (printable_uEscape _) (printable_uEscape _)
    | exact printable_of_all (by decide)

theorem printable_quote (text : Text) : Printable (quote text) := by
  unfold quote
  refine printable_append (printable_cons (by decide) ?_) (printable_of_all (by decide))
  intro c hc
  obtain ⟨d, -, hd⟩ := List.mem_flatMap.mp hc
  exact printable_escapeChar d c hd

section Gap

variable {gap : Text} (hgap : Printable gap)

include hgap

mutual

theorem printable_dumpsWith (value : Json) (h : WellFormed value) :
    Printable (dumpsWith gap value) := by
  match value, h with
  | .null, _ => rw [dumpsWith]; exact printable_of_all (by decide)
  | .bool true, _ => rw [dumpsWith]; exact printable_of_all (by decide)
  | .bool false, _ => rw [dumpsWith]; exact printable_of_all (by decide)
  | .num _, h => exact absurd h (by simp [WellFormed])
  | .str text, _ => rw [dumpsWith]; exact printable_quote text
  | .arr [], _ => rw [dumpsWith]; exact printable_of_all (by decide)
  | .arr (item :: items), h =>
      simp only [WellFormed, WellFormedItems] at h
      rw [dumpsWith]
      exact printable_append (printable_cons (by decide) (printable_dumpsWith item h.1))
        (printable_dumpsItemsWith items h.2)
  | .obj [], _ => rw [dumpsWith]; exact printable_of_all (by decide)
  | .obj ((key, value) :: members), h =>
      simp only [WellFormed, WellFormedMembers] at h
      rw [dumpsWith]
      refine printable_append (printable_append (printable_cons (by decide) (printable_quote key)) ?_)
        (printable_dumpsMembersWith members h.2.2)
      exact printable_cons (by decide) (printable_append hgap (printable_dumpsWith value h.2.1))

theorem printable_dumpsItemsWith (items : List Json) (h : WellFormedItems items) :
    Printable (dumpsItemsWith gap items) := by
  match items, h with
  | [], _ => rw [dumpsItemsWith]; exact printable_of_all (by decide)
  | item :: items, h =>
      simp only [WellFormedItems] at h
      rw [dumpsItemsWith]
      refine printable_append (printable_cons (by decide) ?_) (printable_dumpsItemsWith items h.2)
      exact printable_append hgap (printable_dumpsWith item h.1)

theorem printable_dumpsMembersWith (members : List (Text × Json)) (h : WellFormedMembers members) :
    Printable (dumpsMembersWith gap members) := by
  match members, h with
  | [], _ => rw [dumpsMembersWith]; exact printable_of_all (by decide)
  | (key, value) :: members, h =>
      simp only [WellFormedMembers] at h
      rw [dumpsMembersWith]
      refine printable_append (printable_append (printable_cons (by decide)
        (printable_append hgap (printable_quote key))) ?_) (printable_dumpsMembersWith members h.2)
      exact printable_cons (by decide) (printable_append hgap (printable_dumpsWith value h.1))

end

end Gap

theorem printable_dumps (value : Json) (h : WellFormed value) : Printable (dumps value) := by
  rw [dumps_eq_dumpsWith]
  exact printable_dumpsWith (printable_of_all rfl) value h

theorem printable_dumpsSpaced (value : Json) (h : WellFormed value) :
    Printable (dumpsSpaced value) := printable_dumpsWith (printable_of_all (by decide)) value h

end Ascii

section Length

def plainChar (c : Char) : Bool := 32 ≤ c.toNat && c.toNat ≤ 126 && c ≠ '"' && c ≠ '\\'

theorem escapeChar_plain (h : plainChar c = true) : escapeChar c = [c] := by
  simp only [plainChar, Bool.and_eq_true, decide_eq_true_eq] at h
  obtain ⟨⟨hrange, hquote⟩, hbackslash⟩ := h
  have hne : ∀ d : Char, d.toNat < 32 → c ≠ d := by
    rintro d hd rfl
    omega
  unfold escapeChar
  rw [if_neg hquote, if_neg hbackslash, if_neg (hne _ (by decide)), if_neg (hne _ (by decide)),
    if_neg (hne _ (by decide)), if_neg (hne _ (by decide)), if_neg (hne _ (by decide)),
    if_pos hrange]

theorem length_quote_plain (h : ∀ c ∈ text, plainChar c = true) :
    (quote text).length = text.length + 2 := by
  have hsame : text.flatMap escapeChar = text := by
    rw [List.flatMap_congr fun c hc => escapeChar_plain (h c hc)]
    simp
  simp [quote, hsame]

theorem length_escapeChar_ascii (h : c.toNat < 128) : (escapeChar c).length ≤ 6 := by
  unfold escapeChar
  repeat' split
  all_goals first
    | omega
    | simp [uEscape, hex4]

theorem length_quote_ascii (h : ∀ c ∈ text, c.toNat < 128) :
    (quote text).length ≤ 6 * text.length + 2 := by
  have hescaped : (text.flatMap escapeChar).length ≤ 6 * text.length := by
    induction text with
    | nil => simp
    | cons c rest ih =>
        have hc := length_escapeChar_ascii (h c List.mem_cons_self)
        have hrest := ih fun d hd => h d (List.mem_cons_of_mem _ hd)
        rw [List.flatMap_cons, List.length_append, List.length_cons]
        omega
  simp only [quote, List.length_append, List.length_cons, List.length_nil]
  omega

variable (gap : Text) {texts : List Text} {k : Nat}

theorem length_dumpsItems_strs (h : ∀ text ∈ texts, (quote text).length ≤ k) :
    (dumpsItemsWith gap (texts.map .str)).length ≤ 1 + texts.length * (k + gap.length + 1) := by
  induction texts with
  | nil => simp [dumpsItemsWith]
  | cons text rest ih =>
      have htext := h text List.mem_cons_self
      have hrest := ih fun other ho => h other (List.mem_cons_of_mem _ ho)
      simp only [List.map_cons, dumpsItemsWith, dumpsWith, List.length_append, List.length_cons,
        Nat.add_mul, Nat.one_mul]
      omega

theorem length_dumps_strs (h : ∀ text ∈ texts, (quote text).length ≤ k) :
    (dumpsWith gap (.arr (texts.map .str))).length ≤ 2 + texts.length * (k + gap.length + 1) := by
  cases texts with
  | nil => simp [dumpsWith]
  | cons text rest =>
      have htext := h text List.mem_cons_self
      have hrest := length_dumpsItems_strs gap
        fun other ho => h other (List.mem_cons_of_mem text ho)
      simp only [List.map_cons, dumpsWith, List.length_append, List.length_cons, Nat.add_mul,
        Nat.one_mul]
      omega

end Length

end Json

end OpenvpnServer.Lib
