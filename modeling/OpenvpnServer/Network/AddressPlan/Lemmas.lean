import OpenvpnServer.Network.Saved

namespace OpenvpnServer.Network

open OpenvpnServer.Lib OpenvpnServer.Lib.Ipaddress OpenvpnServer.Lib.Netip

variable {files : Dict Text Text} {name ip : Text}
open OpenvpnServer.Access (addressChar isSpace validName)

section Files

def pushedIn (content : Text) : Option Text :=
  (splitlines (universalNewlines content)).findSome? pushedAddress

theorem mem_staticIps_iff :
    (name, ip) ∈ staticIps files ↔
      name.head? ≠ some '.' ∧ ∃ content, files.get? name = some content ∧
        pushedIn content = some ip := by
  unfold staticIps
  rw [List.mem_filterMap]
  constructor
  · rintro ⟨⟨file, content⟩, hfile, hread⟩
    dsimp only at hread
    split at hread
    · cases hread
    · rename_i hdot
      obtain ⟨found, hfound, heq⟩ := Option.map_eq_some_iff.mp hread
      rw [Prod.mk.injEq] at heq
      obtain ⟨rfl, rfl⟩ := heq
      exact ⟨hdot, content, files.get?_eq_some_iff.mpr hfile, hfound⟩
  · rintro ⟨hdot, content, hfile, hfound⟩
    refine ⟨(name, content), files.get?_eq_some_iff.mp hfile, ?_⟩
    rw [if_neg hdot]
    exact Option.map_eq_some_iff.mpr ⟨ip, hfound, rfl⟩

theorem mem_staticIps_erase {entry : Text × Text}
    (h : entry ∈ staticIps (files.erase name)) : entry.1 ≠ name ∧ entry ∈ staticIps files := by
  obtain ⟨hdot, content, hget, hpushed⟩ := mem_staticIps_iff.mp h
  obtain ⟨hne, hkept⟩ := Dict.get?_of_erase hget
  exact ⟨hne, mem_staticIps_iff.mpr ⟨hdot, content, hkept, hpushed⟩⟩

theorem mem_staticIps_set {content : Text}
    (hpushed : pushedIn content = some ip) {entry : Text × Text}
    (h : entry ∈ staticIps (files.set name content)) :
    entry = (name, ip) ∨ entry.1 ≠ name ∧ entry ∈ staticIps files := by
  obtain ⟨hdot, found, hget, hread⟩ := mem_staticIps_iff.mp h
  by_cases hname : entry.1 = name
  · left
    rw [hname, Dict.get?_set, if_pos rfl, Option.some.injEq] at hget
    rw [← hget, hpushed, Option.some.injEq] at hread
    rw [← hname, hread]
  · right
    rw [files.get?_set_ne _ hname] at hget
    exact ⟨hname, mem_staticIps_iff.mpr ⟨hdot, found, hget, hread⟩⟩

end Files

section PushFile

theorem lineBreak_of_dotted {c : Char} (h : c = '.' ∨ c.isDigit = true) : lineBreak c = false := by
  rcases h with rfl | hdigit
  · decide
  · have hrange := isDigit_iff.mp hdigit
    simp only [lineBreak, List.mem_cons, List.not_mem_nil, or_false, Bool.or_eq_false_iff,
      Bool.and_eq_false_iff, decide_eq_false_iff_not]
    omega

theorem pushedIn_pushFile {mask : Text} (hip : Dotted ip) (hmask : Dotted mask) :
    pushedIn (pushFile ip mask) = some ip := by
  have hline : ∀ c ∈ "ifconfig-push ".toList ++ ip ++ ' ' :: mask, lineBreak c = false := by
    intro c hc
    rw [List.mem_append, List.mem_append, List.mem_cons] at hc
    rcases hc with (hword | hip') | rfl | hmask'
    · exact lineBreak_of_printable (Json.printable_of_all (by decide)) c hword
    · exact lineBreak_of_dotted (hip.2 c hip')
    · decide
    · exact lineBreak_of_dotted (hmask.2 c hmask')
  have hcr : '\r' ∉ pushFile ip mask := by
    unfold pushFile
    rw [List.mem_append, List.mem_singleton, not_or]
    exact ⟨fun hmem => absurd (hline _ hmem) (by decide), by decide⟩
  have hlines : splitlines (pushFile ip mask) = ["ifconfig-push ".toList ++ ip ++ ' ' :: mask, []] := by
    unfold splitlines pushFile
    rw [List.splitOnP_append_cons_of_forall_mem hline '\n' (by decide), List.splitOnP_nil]
  have hoption : afterOption "ifconfig-push" ("ifconfig-push ".toList ++ ip ++ ' ' :: mask) =
      some (ip ++ ' ' :: mask) := by
    change afterOption "ifconfig-push" ("ifconfig-push".toList ++ [' '] ++ ip ++ ' ' :: mask) = _
    have hshape : "ifconfig-push".toList ++ [' '] ++ ip ++ ' ' :: mask =
        "ifconfig-push".toList ++ (' ' :: (ip ++ ' ' :: mask)) := by
      simp only [List.append_assoc, List.cons_append, List.nil_append]
    have hdrop : ("ifconfig-push".toList ++ (' ' :: (ip ++ ' ' :: mask))).dropWhile pySpace =
        "ifconfig-push".toList ++ (' ' :: (ip ++ ' ' :: mask)) := rfl
    unfold afterOption
    rw [hshape, hdrop, afterWord_of_append, Option.bind_some]
    exact hip.afterSpaces _
  have hword : ∀ c ∈ ip, (! pySpace c) = true := by
    intro c hc
    rw [pySpace_of_numberChar (hip.2 c hc)]
    rfl
  have hread : wordAt (ip ++ ' ' :: mask) = some (ip, ' ' :: mask) := by
    obtain ⟨htake, hdrop⟩ := span_append hword fun c (hc : c ∈ (' ' :: mask).head?) => by cases hc; rfl
    unfold wordAt
    rw [htake, hdrop, if_neg hip.1]
  unfold pushedIn
  rw [universalNewlines_of_not_mem hcr, hlines, List.findSome?_cons]
  unfold pushedAddress
  rw [hoption, Option.bind_some, hread]
  rfl

theorem dotted_serverMask (conf : Text) : Dotted (serverMask conf) := by
  unfold serverMask
  cases hfound : (conf.splitOn '\n').findSome? maskLine with
  | none => exact ⟨by decide, List.all_iff_forall_prop.mp (by decide)⟩
  | some mask =>
      obtain ⟨line, -, hline⟩ := List.exists_of_findSome?_eq_some hfound
      unfold maskLine at hline
      obtain ⟨rest, -, hline⟩ := Option.bind_eq_some_iff.mp hline
      split at hline
      · dsimp only at hline
        split at hline
        · rename_i hshape
          cases hline
          rw [Bool.and_eq_true, Bool.not_eq_true', List.isEmpty_eq_false_iff] at hshape
          refine ⟨hshape.2, fun c hc => ?_⟩
          have haddress := List.mem_takeWhile_imp hc
          simpa [addressChar, or_comm] using haddress
        · cases hline
      · cases hline

theorem dotted_subnetMask (host : Host) (conf : Text) : Dotted (subnetMask host conf) := by
  unfold subnetMask
  cases vpnSubnet host.wide conf with
  | none => exact ⟨by decide, List.all_iff_forall_prop.mp (by decide)⟩
  | some subnet => exact dotted_dotted _

theorem dotted_of_parse {address : BitVec 32} (h : parseIPv4 ip = some address) :
    Dotted ip := by
  rw [← dotted_of_parseIPv4 h]
  exact dotted_dotted _

end PushFile

section Ranges

theorem broadcast_lt (net : Network 32) : firstAddress net + 2 ^ (32 - net.prefixlen) ≤ 2 ^ 32 := by
  have hstrict := net.strict
  have hlt := net.address.isLt
  unfold Prefix.clearHost at hstrict
  unfold firstAddress
  have hpow : 2 ^ net.prefixlen * 2 ^ (32 - net.prefixlen) = 2 ^ 32 := by
    rw [← Nat.pow_add, Nat.add_sub_cancel' net.prefixlen_le]
  have hquot : net.address.toNat / 2 ^ (32 - net.prefixlen) < 2 ^ net.prefixlen := by
    rw [Nat.div_lt_iff_lt_mul (Nat.two_pow_pos _), hpow]
    exact hlt
  calc net.address.toNat + 2 ^ (32 - net.prefixlen)
      = (net.address.toNat / 2 ^ (32 - net.prefixlen) + 1) * 2 ^ (32 - net.prefixlen) := by
        rw [Nat.add_mul, Nat.one_mul, hstrict]
    _ ≤ 2 ^ net.prefixlen * 2 ^ (32 - net.prefixlen) := Nat.mul_le_mul_right _ hquot
    _ = 2 ^ 32 := hpow

theorem leaseRange_str (guest : Network 32) (h : guest.prefixlen ≤ 30) :
    leaseRange (IpNetwork.v4 guest).str = some (firstAddress guest + 1,
      broadcastAddress guest - 1) ∧ firstAddress guest + 4 ≤ broadcastAddress guest + 1 := by
  have hbound := broadcast_lt guest
  have hsize : 4 ≤ 2 ^ (32 - guest.prefixlen) := by
    calc 4 = 2 ^ 2 := rfl
      _ ≤ 2 ^ (32 - guest.prefixlen) := Nat.pow_le_pow_right (by decide) (by omega)
  have hslash : '/' ∉ dotted guest.address.toNat := slash_not_mem_dotted _
  have hle := guest.prefixlen_le
  unfold leaseRange broadcastAddress
  unfold firstAddress at hbound ⊢
  rw [IpNetwork.str, cutFirst_append_cons hslash]
  dsimp only
  rw [parseIPv4_dotted guest.address.isLt, decimal?_decimal]
  dsimp only
  rw [if_pos hle, BitVec.toNat_ofNat, Nat.mod_eq_of_lt guest.address.isLt]
  refine ⟨?_, by omega⟩
  rw [Option.some.injEq, Prod.mk.injEq]
  omega

end Ranges

end OpenvpnServer.Network
