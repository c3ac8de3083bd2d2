import OpenvpnServer.Lib.Capsule

-- UDP over HTTP/2: datagrams as capsules in the bodies of a request and its answer.
namespace OpenvpnServer.Relay

open OpenvpnServer.Lib

def maxUDPPayload : Nat := 65507

section Model

-- Where `countedCapsulesToUDP` returns its error.
inductive CapsuleError where
  | next
  | discard
  | contextID
  | payload
  | write
  deriving DecidableEq, Repr

-- What was sent, what was added to the flow, the error, and the stream from the capsule on
-- that it came from.
structure Delivery where
  datagrams : List (List UInt8)
  added : List Nat
  error : CapsuleError
  left : List UInt8
  deriving DecidableEq, Repr

-- `capsule.Discard()`: the stream behind the rest of the capsule.
def discardCapsule (remaining : Nat) (stream : List UInt8) : Option (List UInt8) :=
  if stream.length < remaining then none else some (stream.drop remaining)

-- `conn.Write` of the datagram after `count` others: the bytes written, and whether there
-- was no error.
abbrev SocketWrite := (count : Nat) → List UInt8 → Nat × Bool

-- `remaining` bytes of the capsule are not read yet.
def capsuleLoop (write : SocketWrite) : (fuel count : Nat) → List UInt8 → Option Delivery
  | 0, _, _ => none
  | fuel + 1, count, stream =>
      match capsuleHeader stream with
      | none => some ⟨[], [], .next, stream⟩
      | some (kind, remaining, body) =>
          if kind ≠ 0 then
            match discardCapsule remaining body with
            | none => some ⟨[], [], .discard, stream⟩
            | some rest => capsuleLoop write fuel count rest
          else
            match readVarint (body.take remaining) with
            | none => some ⟨[], [], .contextID, stream⟩
            | some (contextID, unread) =>
                let used := (body.take remaining).length - unread.length
                let remaining := remaining - used
                let body := body.drop used
                if contextID ≠ 0 ∨ maxUDPPayload < remaining then
                  match discardCapsule remaining body with
                  | none => some ⟨[], [], .discard, stream⟩
                  | some rest => capsuleLoop write fuel count rest
                else if body.length < remaining then some ⟨[], [], .payload, stream⟩
                else
                  let (n, ok) := write count (body.take remaining)
                  if ok = false then some ⟨[], [n], .write, stream⟩
                  else
                    (capsuleLoop write fuel (count + 1) (body.drop remaining)).map fun later =>
                      { later with
                        datagrams := body.take remaining :: later.datagrams
                        added := n :: later.added }

-- A capsule has a byte at least, so there are fewer capsules than turns.
def countedCapsulesToUDP (write : SocketWrite) (stream : List UInt8) : Option Delivery :=
  capsuleLoop write (stream.length + 1) 0 stream

-- A datagram of the socket, and the bytes of its capsule that the response took where
-- writing or flushing it was an error.
structure UDPRead where
  datagram : List UInt8
  failed : Option Nat

-- The loop of `proxyHTTP2UDP`: the body of the response and what was added to the flow.
-- The first byte of the buffer is the context ID.
def udpLoop (buffer : List UInt8) : List UDPRead → List UInt8 × List Nat
  | [] => ([], [])
  | read :: rest =>
      let n := min read.datagram.length (buffer.length - 1)
      let buffer := buffer.take 1 ++ (read.datagram.take n ++ buffer.drop (n + 1))
      if maxUDPPayload < n then udpLoop buffer rest
      else
        match read.failed with
        | some taken => ((writeCapsule 0 (buffer.take (n + 1))).take taken, [])
        | none =>
            let later := udpLoop buffer rest
            (writeCapsule 0 (buffer.take (n + 1)) ++ later.1, n :: later.2)

def proxyHTTP2UDP (reads : List UDPRead) : List UInt8 × List Nat :=
  udpLoop (List.replicate 65536 0) reads

end Model

section Meaning

-- A type-0 capsule too short for a context ID
def tooShort (capsule : Capsule) : Bool :=
  capsule.kind.value = 0 && (readVarint capsule.value).isNone

def datagram? (capsule : Capsule) : Option (List UInt8) :=
  if capsule.kind.value ≠ 0 then none
  else
    match readVarint capsule.value with
    | some (0, payload) => if payload.length ≤ maxUDPPayload then some payload else none
    | _ => none

def passedCapsules (capsules : List Capsule) : List Capsule :=
  capsules.takeWhile fun capsule => !tooShort capsule

def deliveredDatagrams (capsules : List Capsule) : List (List UInt8) :=
  (passedCapsules capsules).filterMap datagram?

end Meaning

section Steps

-- Its equations, before the lemmas that rewrite with them.
attribute [local simp] capsuleLoop

variable {write : SocketWrite} {fuel count : Nat} {capsule : Capsule} {rest : List UInt8}

theorem discardCapsule_append (value rest : List UInt8) :
    discardCapsule value.length (value ++ rest) = some rest := by
  have hlength : ¬(value ++ rest).length < value.length := by
    rw [List.length_append]
    omega
  rw [discardCapsule, if_neg hlength, List.drop_left]

theorem unread_of_context {value unread : List UInt8} {contextID : Nat}
    (h : readVarint value = some (contextID, unread)) (rest : List UInt8) :
    value.length - (value.length - unread.length) = unread.length ∧
      (value ++ rest).drop (value.length - unread.length) = unread ++ rest := by
  have hlength := length_of_readVarint h
  refine ⟨by omega, ?_⟩
  rw [List.drop_append_of_le_length (by omega), drop_of_readVarint h]

theorem capsuleLoop_context {contextID : Nat} {unread : List UInt8}
    (hkind : capsule.kind.value = 0) (h : readVarint capsule.value = some (contextID, unread)) :
    capsuleLoop write (fuel + 1) count (capsule.bytes ++ rest) =
      if contextID ≠ 0 ∨ maxUDPPayload < unread.length then capsuleLoop write fuel count rest
      else if (write count unread).2 = false then
        some ⟨[], [(write count unread).1], .write, capsule.bytes ++ rest⟩
      else
        (capsuleLoop write fuel (count + 1) rest).map fun later =>
          { later with
            datagrams := unread :: later.datagrams
            added := (write count unread).1 :: later.added } := by
  obtain ⟨hremaining, hbody⟩ := unread_of_context h rest
  have hfits : ¬(unread ++ rest).length < unread.length := by
    rw [List.length_append]
    omega
  rw [capsuleLoop, capsuleHeader_bytes, hkind]
  dsimp only
  rw [if_neg (by simp), List.take_left, h]
  dsimp only
  rw [hremaining, hbody, discardCapsule_append, List.take_left, List.drop_left, if_neg hfits]

theorem capsuleLoop_short (h : tooShort capsule = true) :
    capsuleLoop write (fuel + 1) count (capsule.bytes ++ rest) =
      some ⟨[], [], .contextID, capsule.bytes ++ rest⟩ := by
  simp only [tooShort, Bool.and_eq_true, decide_eq_true_eq, Option.isNone_iff_eq_none] at h
  rw [capsuleLoop, capsuleHeader_bytes, h.1]
  dsimp only
  rw [if_neg (by simp), List.take_left, h.2]

theorem capsuleLoop_skip (hshort : tooShort capsule = false) (hnone : datagram? capsule = none) :
    capsuleLoop write (fuel + 1) count (capsule.bytes ++ rest) =
      capsuleLoop write fuel count rest := by
  by_cases hkind : capsule.kind.value = 0
  · cases hread : readVarint capsule.value with
    | none => simp [tooShort, hkind, hread] at hshort
    | some found =>
        obtain ⟨contextID, unread⟩ := found
        have hskipped : contextID ≠ 0 ∨ maxUDPPayload < unread.length := by
          by_cases hcontext : contextID = 0
          · subst hcontext
            simp only [datagram?, hkind, ne_eq, not_true_eq_false, if_false, hread] at hnone
            split at hnone
            · cases hnone
            · exact .inr (by omega)
          · exact .inl hcontext
        rw [capsuleLoop_context hkind hread, if_pos hskipped]
  · rw [capsuleLoop, capsuleHeader_bytes]
    dsimp only
    rw [if_pos hkind, discardCapsule_append]

theorem capsuleLoop_deliver {payload : List UInt8} (h : datagram? capsule = some payload)
    (hwrite : ∀ count payload, write count payload = (payload.length, true)) :
    capsuleLoop write (fuel + 1) count (capsule.bytes ++ rest) =
      (capsuleLoop write fuel (count + 1) rest).map fun later =>
        { later with
          datagrams := payload :: later.datagrams
          added := payload.length :: later.added } := by
  unfold datagram? at h
  split at h
  · cases h
  · rename_i hkind
    rw [not_not] at hkind
    split at h
    · rename_i unread hread
      split at h
      · rename_i hfits
        cases h
        have hkept : ¬((0 : Nat) ≠ 0 ∨ maxUDPPayload < payload.length) := by omega
        rw [capsuleLoop_context hkind hread, if_neg hkept, hwrite]
        rfl
      · cases h
    · cases h

theorem capsuleLoop_cut (h : ¬StartsWhole rest) :
    ∃ error, error ≠ .write ∧
      capsuleLoop write (fuel + 1) count rest = some ⟨[], [], error, rest⟩ := by
  rw [capsuleLoop]
  cases hheader : capsuleHeader rest with
  | none => exact ⟨.next, by decide, rfl⟩
  | some header =>
      obtain ⟨kind, remaining, body⟩ := header
      have hcut : body.length < remaining := by
        by_contra hle
        exact h ⟨kind, remaining, body, hheader, by omega⟩
      have hdiscard : discardCapsule remaining body = none := if_pos hcut
      dsimp only
      by_cases hkind : kind = 0
      · rw [if_neg (by simp [hkind]), List.take_of_length_le (by omega)]
        cases hread : readVarint body with
        | none => exact ⟨.contextID, by decide, rfl⟩
        | some found =>
            obtain ⟨contextID, unread⟩ := found
            have hlength := length_of_readVarint hread
            have hshort : (body.drop (body.length - unread.length)).length <
                remaining - (body.length - unread.length) := by
              rw [List.length_drop]
              omega
            have hdiscard' : discardCapsule (remaining - (body.length - unread.length))
                (body.drop (body.length - unread.length)) = none := if_pos hshort
            dsimp only
            rw [hdiscard', if_pos hshort]
            split
            · exact ⟨.discard, by decide, rfl⟩
            · exact ⟨.payload, by decide, rfl⟩
      · rw [if_pos hkind, hdiscard]
        exact ⟨.discard, by decide, rfl⟩

end Steps

section Runs

variable {write : SocketWrite}

theorem wire_cons (capsule : Capsule) (capsules : List Capsule) (rest : List UInt8) :
    wire (capsule :: capsules) ++ rest = capsule.bytes ++ (wire capsules ++ rest) := by
  rw [wire, List.flatMap_cons, List.append_assoc]
  rfl

-- Induction on the capsules: each one is skipped or sent, and leaves the stream at the next.
theorem capsuleLoop_wire (hwrite : ∀ count payload, write count payload = (payload.length, true))
    {capsules : List Capsule} {rest : List UInt8} (hrest : ¬StartsWhole rest) {fuel : Nat}
    (hfuel : capsules.length < fuel) (count : Nat) :
    ∃ error, error ≠ .write ∧
      ((∃ capsule ∈ capsules, tooShort capsule = true) → error = .contextID) ∧
      capsuleLoop write fuel count (wire capsules ++ rest) =
        some ⟨deliveredDatagrams capsules, (deliveredDatagrams capsules).map List.length, error,
          wire (capsules.drop (passedCapsules capsules).length) ++ rest⟩ := by
  obtain ⟨fuel, rfl⟩ : ∃ k, fuel = k + 1 := ⟨fuel - 1, by omega⟩
  induction capsules generalizing fuel count with
  | nil =>
      obtain ⟨error, hne, hloop⟩ := @capsuleLoop_cut write fuel count rest hrest
      exact ⟨error, hne, by simp, hloop⟩
  | cons capsule capsules ih =>
      rw [wire_cons]
      by_cases hshort : tooShort capsule = true
      · refine ⟨.contextID, by decide, fun _ => rfl, ?_⟩
        rw [capsuleLoop_short hshort, deliveredDatagrams, passedCapsules,
          List.takeWhile_cons_of_neg (by simp [hshort]), ← wire_cons]
        rfl
      · rw [Bool.not_eq_true] at hshort
        rw [List.length_cons] at hfuel
        obtain ⟨fuel, rfl⟩ : ∃ k, fuel = k + 1 := ⟨fuel - 1, by omega⟩
        have hpassed : passedCapsules (capsule :: capsules) = capsule :: passedCapsules capsules :=
          List.takeWhile_cons_of_pos (by simp [hshort])
        have hlater {error : CapsuleError}
            (h : (∃ capsule ∈ capsules, tooShort capsule = true) → error = .contextID) :
            (∃ other ∈ capsule :: capsules, tooShort other = true) → error = .contextID := by
          rintro ⟨other, hmem, hother⟩
          rcases List.mem_cons.mp hmem with rfl | hmem
          · rw [hshort] at hother
            cases hother
          · exact h ⟨other, hmem, hother⟩
        cases hdatagram : datagram? capsule with
        | none =>
            obtain ⟨error, hne, herror, hloop⟩ := ih count fuel (by omega)
            refine ⟨error, hne, hlater herror, ?_⟩
            rw [capsuleLoop_skip hshort hdatagram, hloop, deliveredDatagrams, deliveredDatagrams,
              hpassed, List.filterMap_cons_none hdatagram]
            rfl
        | some payload =>
            obtain ⟨error, hne, herror, hloop⟩ := ih (count + 1) fuel (by omega)
            refine ⟨error, hne, hlater herror, ?_⟩
            rw [capsuleLoop_deliver hdatagram hwrite, hloop, deliveredDatagrams,
              deliveredDatagrams, hpassed, List.filterMap_cons_some hdatagram]
            rfl

def capsuleOf (datagram : List UInt8) (h : datagram.length ≤ maxUDPPayload) : Capsule where
  kind := Varint.ofNat 0 (by decide)
  length := Varint.ofNat (datagram.length + 1) (by unfold maxUDPPayload at h; omega)
  value := 0 :: datagram
  fits := rfl

theorem readVarint_zero (payload : List UInt8) : readVarint (0 :: payload) = some (0, payload) :=
  rfl

theorem datagram?_capsuleOf {datagram : List UInt8} (h : datagram.length ≤ maxUDPPayload) :
    datagram? (capsuleOf datagram h) = some datagram := by
  have hkind : (capsuleOf datagram h).kind.value = 0 := rfl
  have hvalue : (capsuleOf datagram h).value = 0 :: datagram := rfl
  rw [datagram?, hkind, if_neg (by simp), hvalue, readVarint_zero]
  exact if_pos h

theorem tooShort_capsuleOf {datagram : List UInt8} (h : datagram.length ≤ maxUDPPayload) :
    tooShort (capsuleOf datagram h) = false := rfl

theorem udpLoop_eq_wire {buffer : List UInt8} (hlength : buffer.length = 65536)
    (hcontext : buffer.take 1 = [0]) (datagrams : List (List UInt8))
    (h : ∀ datagram ∈ datagrams, datagram.length ≤ maxUDPPayload) :
    ∃ capsules, (udpLoop buffer (datagrams.map (⟨·, none⟩))).1 = wire capsules ∧
      passedCapsules capsules = capsules ∧ deliveredDatagrams capsules = datagrams := by
  induction datagrams generalizing buffer with
  | nil => exact ⟨[], rfl, rfl, rfl⟩
  | cons datagram rest ih =>
      rw [List.forall_mem_cons] at h
      have hsize := h.1
      unfold maxUDPPayload at hsize
      have hmin : min datagram.length (buffer.length - 1) = datagram.length := by omega
      have hnext : ([0] ++ (datagram ++ buffer.drop (datagram.length + 1))).length = 65536 := by
        simp only [List.length_append, List.length_drop, List.length_singleton]
        omega
      have hread : ([0] ++ (datagram ++ buffer.drop (datagram.length + 1))).take
          (datagram.length + 1) = 0 :: datagram := by
        rw [List.singleton_append, List.take_succ_cons, List.take_left]
      obtain ⟨capsules, hwire, hpassed, hdatagrams⟩ := ih hnext rfl h.2
      refine ⟨capsuleOf datagram h.1 :: capsules, ?_, ?_, ?_⟩
      · rw [List.map_cons, udpLoop]
        dsimp only
        rw [hmin, if_neg (by unfold maxUDPPayload; omega), hcontext, List.take_length, hread, hwire]
        rfl
      · rw [passedCapsules, List.takeWhile_cons_of_pos (by simp [tooShort_capsuleOf h.1])]
        exact congrArg (capsuleOf datagram h.1 :: ·) hpassed
      · rw [deliveredDatagrams, passedCapsules,
          List.takeWhile_cons_of_pos (by simp [tooShort_capsuleOf h.1]),
          List.filterMap_cons_some (datagram?_capsuleOf h.1)]
        exact congrArg (datagram :: ·) hdatagrams

theorem not_startsWhole_nil : ¬StartsWhole [] := by
  rintro ⟨kind, length, body, hheader, -⟩
  cases hheader

theorem datagrams_keep_framing (write : SocketWrite)
    (hwrite : ∀ count payload, write count payload = (payload.length, true)) :
    (∀ (capsules : List Capsule) (rest : List UInt8), ¬StartsWhole rest →
      ∃ error, error ≠ .write ∧
        ((∃ capsule ∈ capsules, tooShort capsule = true) → error = .contextID) ∧
        countedCapsulesToUDP write (wire capsules ++ rest) =
          some ⟨deliveredDatagrams capsules, (deliveredDatagrams capsules).map List.length, error,
            wire (capsules.drop (passedCapsules capsules).length) ++ rest⟩) ∧
      ∀ datagrams : List (List UInt8),
        (∀ datagram ∈ datagrams, datagram.length ≤ maxUDPPayload) →
        ∃ error, countedCapsulesToUDP write (proxyHTTP2UDP (datagrams.map (⟨·, none⟩))).1 =
          some ⟨datagrams, datagrams.map List.length, error, []⟩ := by
  have hcounted (capsules : List Capsule) (rest : List UInt8) (hrest : ¬StartsWhole rest) :
      ∃ error, error ≠ .write ∧
        ((∃ capsule ∈ capsules, tooShort capsule = true) → error = .contextID) ∧
        countedCapsulesToUDP write (wire capsules ++ rest) =
          some ⟨deliveredDatagrams capsules, (deliveredDatagrams capsules).map List.length, error,
            wire (capsules.drop (passedCapsules capsules).length) ++ rest⟩ := by
    have hfuel : capsules.length < (wire capsules ++ rest).length + 1 := by
      have hle := length_le_wire capsules
      rw [List.length_append]
      omega
    exact capsuleLoop_wire hwrite hrest hfuel 0
  refine ⟨hcounted, fun datagrams hsize => ?_⟩
  obtain ⟨capsules, hwire, hpassed, hdatagrams⟩ :=
    udpLoop_eq_wire List.length_replicate (by rw [List.take_replicate]; rfl) datagrams hsize
  obtain ⟨error, -, -, hloop⟩ := hcounted capsules [] not_startsWhole_nil
  refine ⟨error, ?_⟩
  rw [hdatagrams, hpassed, List.drop_length, List.append_nil] at hloop
  rw [proxyHTTP2UDP, hwire]
  exact hloop

-- A capsule of another kind between two datagrams, and one that is cut short behind them.
def otherCapsule : Capsule where
  kind := Varint.ofNat 1 (by decide)
  length := Varint.ofNat 3 (by decide)
  value := [9, 9, 9]
  fits := rfl

theorem skipped_capsule_keeps_framing :
    ∃ error, countedCapsulesToUDP (fun _ payload => (payload.length, true))
      (wire [capsuleOf [1, 2] (by decide), otherCapsule, capsuleOf [3] (by decide)] ++ [0, 2, 0]) =
        some ⟨[[1, 2], [3]], [2, 1], error, [0, 2, 0]⟩ := by
  have hcut : ¬StartsWhole [0, 2, 0] := by
    rintro ⟨kind, length, body, hheader, hlength⟩
    cases hheader
    exact absurd hlength (by decide)
  obtain ⟨error, -, -, hloop⟩ :=
    (datagrams_keep_framing (fun _ payload => (payload.length, true)) fun _ _ => rfl).1
      [capsuleOf [1, 2] (by decide), otherCapsule, capsuleOf [3] (by decide)] [0, 2, 0] hcut
  exact ⟨error, hloop⟩

end Runs

end OpenvpnServer.Relay
