import OpenvpnServer.Accounts.Identity
import OpenvpnServer.Lib.Table

namespace OpenvpnServer.Accounts

open OpenvpnServer.Lib

variable {serial cert : Nat} {madeFor : Option Nat} {request : Request}

section Pki

variable {pki pki' : Pki}

structure PkiInv (pki : Pki) : Prop where
  current : ∀ serial, pki.current = some serial → serial < pki.identities.length
  owners : ∀ serial owner, pki.identity serial = some owner → owner < pki.identities.length

-- What every operation on the PKI keeps: the identity of a serial, and that an
-- identity which is not current never becomes current again.
structure Extends (pki pki' : Pki) : Prop where
  length : pki.identities.length ≤ pki'.identities.length
  identity : ∀ serial, serial < pki.identities.length → pki'.identity serial = pki.identity serial
  dead : ∀ serial, serial < pki.identities.length → pki.currentIdentity ≠ pki.identity serial →
    pki'.currentIdentity ≠ pki'.identity serial

theorem identity_concat {owner : Nat} (current previous : Option Nat) (revoked : List Nat)
    (h : serial < pki.identities.length) :
    Pki.identity ⟨current, previous, pki.identities ++ [owner], revoked⟩ serial =
      pki.identity serial :=
  List.getElem?_append_left h

theorem owners_concat (h : PkiInv pki) {owner : Nat} (ho : owner ≤ pki.identities.length)
    (current previous : Option Nat) (revoked : List Nat) (serial owner' : Nat)
    (hi : Pki.identity ⟨current, previous, pki.identities ++ [owner], revoked⟩ serial =
      some owner') : owner' < (pki.identities ++ [owner]).length := by
  rw [List.length_append, List.length_singleton]
  rcases getElem?_concat_cases hi with hi | ⟨_, rfl⟩
  · exact Nat.lt_succ_of_lt (h.owners serial owner' hi)
  · exact Nat.lt_succ_of_le ho

theorem create_spec (h : PkiInv pki) (hc : pki.create = some pki') :
    PkiInv pki' ∧ Extends pki pki' := by
  unfold Pki.create at hc
  split at hc
  · cases hc
  · cases hc
    refine ⟨⟨?_, owners_concat h (Nat.le_refl _) _ _ _⟩, ⟨by simp, ?_, ?_⟩⟩
    · rintro serial ⟨⟩
      simp
    · intro serial hs
      exact identity_concat _ _ _ hs
    · intro serial hs _ heq
      rw [identity_concat _ _ _ hs] at heq
      have hfresh : pki.identity serial = some pki.identities.length := by
        rw [← heq]
        simp [Pki.currentIdentity, Pki.identity]
      exact Nat.lt_irrefl _ (h.owners serial _ hfresh)

theorem renew_spec (h : PkiInv pki) (hc : pki.renew = some pki') :
    PkiInv pki' ∧ Extends pki pki' := by
  unfold Pki.renew at hc
  split at hc
  case h_2 => cases hc
  case h_1 serial hcurrent _ =>
      split at hc
      case h_2 => cases hc
      case h_1 owner howner =>
          cases hc
          refine ⟨⟨?_, owners_concat h (Nat.le_of_lt (h.owners serial owner howner)) _ _ _⟩, ⟨by simp, ?_, ?_⟩⟩
          · rintro serial ⟨⟩
            simp
          · intro serial hs
            exact identity_concat _ _ _ hs
          · intro serial' hs hne
            rw [identity_concat _ _ _ hs]
            have hsame : Pki.currentIdentity ⟨some pki.identities.length, some serial,
                pki.identities ++ [owner], pki.revoked⟩ = pki.currentIdentity := by
              simp [Pki.currentIdentity, Pki.identity, hcurrent, ← howner]
            rw [hsame]
            exact hne

theorem revokePrevious_spec (h : PkiInv pki) (hc : pki.revokePrevious = some pki') :
    PkiInv pki' ∧ Extends pki pki' ∧ pki'.current = pki.current := by
  unfold Pki.revokePrevious at hc
  split at hc
  · cases hc
    exact ⟨⟨h.current, h.owners⟩, ⟨Nat.le_refl _, fun _ _ => rfl, fun _ _ hne => hne⟩, rfl⟩
  · cases hc

theorem revoke_spec (h : PkiInv pki) (hc : pki.revoke = some pki') :
    PkiInv pki' ∧ Extends pki pki' := by
  unfold Pki.revoke at hc
  have hlen : (pki.revokePrevious.getD pki).identities = pki.identities := by
    unfold Pki.revokePrevious
    cases pki.previous <;> rfl
  dsimp only at hc
  split at hc
  · cases hc
    have hid (serial : Nat) (current : Option Nat) (revoked : List Nat) :
        Pki.identity ⟨current, (pki.revokePrevious.getD pki).previous,
          (pki.revokePrevious.getD pki).identities, revoked⟩ serial = pki.identity serial := by
      simp [Pki.identity, hlen]
    refine ⟨⟨by simp, ?_⟩, ⟨by simp [hlen], fun serial _ => hid serial _ _, ?_⟩⟩
    · intro serial owner ho
      rw [hid] at ho
      simpa [hlen] using h.owners serial owner ho
    · intro serial hs _ heq
      rw [hid] at heq
      have : pki.identity serial = none := heq.symm
      simp only [Pki.identity, List.getElem?_eq_none_iff] at this
      omega
  · cases hc

theorem eligible_spec {inPeriod : Bool} (h : pki.eligible inPeriod = some cert) :
    pki.current = some cert ∧ cert ∉ pki.revoked ∧ inPeriod = true := by
  unfold Pki.eligible at h
  split at h
  · rename_i serial hcurrent
    split at h
    · rename_i hok
      cases h
      exact ⟨hcurrent, hok.1, hok.2⟩
    · cases h
  · cases h

-- A credential bound to `serial` that was made for `madeFor`: the serial belongs
-- to that identity, or to one that is gone for good.
def Bound (pki : Pki) (serial : Nat) (madeFor : Option Nat) : Prop :=
  serial < pki.identities.length ∧
    (madeFor = pki.identity serial ∨ pki.currentIdentity ≠ pki.identity serial)

theorem Bound.extends (h : Bound pki serial madeFor)
    (he : Extends pki pki') : Bound pki' serial madeFor := by
  refine ⟨Nat.lt_of_lt_of_le h.1 he.length, ?_⟩
  rcases h.2 with heq | hne
  · rw [he.identity serial h.1]
    exact .inl heq
  · exact .inr (he.dead serial h.1 hne)

theorem bound_now (h : cert < pki.identities.length) :
    Bound pki cert pki.currentIdentity := by
  refine ⟨h, ?_⟩
  by_cases heq : pki.currentIdentity = pki.identity cert
  · exact .inl heq
  · exact .inr heq

theorem Bound.rebind (h : Bound pki serial madeFor)
    (hc : cert < pki.identities.length) (hi : pki.identity cert = pki.identity serial) :
    Bound pki cert madeFor := by
  refine ⟨hc, ?_⟩
  rw [hi]
  exact h.2

theorem Bound.current (h : Bound pki serial madeFor)
    (hc : pki.current = some serial) : madeFor = pki.currentIdentity := by
  have hid : pki.currentIdentity = pki.identity serial := by simp [Pki.currentIdentity, hc]
  rcases h.2 with heq | hne
  · rw [heq, hid]
  · exact absurd hid hne

end Pki

section Requests

variable {s s' : IdentityState}

def RequestInv (pki : Pki) : Request → Prop
  | .renewFound serial | .renewIssued serial | .renewBound serial =>
      serial < pki.identities.length
  | .renewEligible serial cert | .renewEligibleAgain serial cert =>
      serial < pki.identities.length ∧ cert < pki.identities.length ∧
        pki.identity cert = pki.identity serial
  | .profileEligible cert | .accountEligible cert => cert < pki.identities.length
  | .authorizing _ grant => Bound pki grant.serial grant.madeFor
  | .signingIn account => Bound pki account.serial account.madeFor
  | _ => True

theorem RequestInv.extends {pki pki' : Pki} (h : RequestInv pki request)
    (he : Extends pki pki') : RequestInv pki' request := by
  have hlt {serial : Nat} (hs : serial < pki.identities.length) :
      serial < pki'.identities.length := Nat.lt_of_lt_of_le hs he.length
  have hpair {serial cert : Nat} (hs : serial < pki.identities.length)
      (hc : cert < pki.identities.length) (hi : pki.identity cert = pki.identity serial) :
      pki'.identity cert = pki'.identity serial := by
    rw [he.identity cert hc, he.identity serial hs, hi]
  cases request with
  | renewFound serial => exact hlt h
  | renewIssued serial => exact hlt h
  | renewBound serial => exact hlt h
  | renewEligible serial cert => exact ⟨hlt h.1, hlt h.2.1, hpair h.1 h.2.1 h.2.2⟩
  | renewEligibleAgain serial cert => exact ⟨hlt h.1, hlt h.2.1, hpair h.1 h.2.1 h.2.2⟩
  | profileEligible cert => exact hlt h
  | accountEligible cert => exact hlt h
  | authorizing secret grant => exact Bound.extends h he
  | signingIn account => exact Bound.extends h he
  | revokeFound => trivial
  | revokeIssued => trivial
  | deleteFound => trivial
  | deleteRemoved => trivial
  | deleteAccount id => trivial
  | deleteGrant => trivial
  | finished => trivial

structure IdentityInv (s : IdentityState) : Prop where
  pki : PkiInv s.pki
  grant : ∀ grant, s.grant = some grant → Bound s.pki grant.serial grant.madeFor
  account : ∀ account, s.account = some account → Bound s.pki account.serial account.madeFor
  requests : ∀ (i : Nat) (request : Request), s.requests[i]? = some request →
    RequestInv s.pki request

-- Whenever a renew request reads the certificate it is going to bind to, that
-- certificate is of the identity whose serial its `find_client` showed.
def OwnCertificate (s : IdentityState) : IdentityStep → Prop
  | .next i _ _ => ∀ serial cert,
      s.requests[i]? = some (.renewIssued serial) ∨ s.requests[i]? = some (.renewBound serial) →
      s.pki.current = some cert → s.pki.identity cert = s.pki.identity serial
  | _ => True

theorem IdentityInv.setPki (h : IdentityInv s) {pki' : Pki} (hp : PkiInv pki')
    (he : Extends s.pki pki') : IdentityInv { s with pki := pki' } :=
  ⟨hp, fun grant hg => (h.grant grant hg).extends he,
    fun account ha => (h.account account ha).extends he,
    fun i request hr => (h.requests i request hr).extends he⟩

theorem IdentityInv.add (h : IdentityInv s) (hr : RequestInv s.pki request) :
    IdentityInv (s.add request) := by
  refine ⟨h.pki, h.grant, h.account, ?_⟩
  intro i request' hi
  rcases getElem?_concat_cases hi with hi | ⟨_, rfl⟩
  · exact h.requests i request' hi
  · exact hr

theorem IdentityInv.put (h : IdentityInv s) {i : Nat}
    (hr : RequestInv s.pki request) : IdentityInv (s.put i request) := by
  refine ⟨h.pki, h.grant, h.account, ?_⟩
  intro j request' hj
  rcases getElem?_set_cases hj with ⟨_, rfl⟩ | ⟨_, hj⟩
  · exact hr
  · exact h.requests j request' hj

theorem IdentityInv.setGrant (h : IdentityInv s) {grant : Option Grant}
    (hg : ∀ g, grant = some g → Bound s.pki g.serial g.madeFor) :
    IdentityInv { s with grant } := ⟨h.pki, hg, h.account, h.requests⟩

theorem IdentityInv.setAccount (h : IdentityInv s) {account : Option Account}
    (ha : ∀ a, account = some a → Bound s.pki a.serial a.madeFor) (nextAccount : Nat) :
    IdentityInv { s with account, nextAccount } := ⟨h.pki, h.grant, ha, h.requests⟩

theorem IdentityInv.profileTx (h : IdentityInv s) (secret : Nat)
    (hc : cert < s.pki.identities.length) : IdentityInv (s.profileTx cert secret) := by
  have hnew : ∀ g, some (⟨cert, secret, s.pki.currentIdentity⟩ : Grant) = some g →
      Bound s.pki g.serial g.madeFor := by
    rintro _ ⟨⟩
    exact bound_now hc
  unfold IdentityState.profileTx
  split
  · split
    · exact h.setGrant hnew
    · exact h
  · exact h.setGrant hnew

theorem IdentityInv.accountTx (h : IdentityInv s)
    (hc : cert < s.pki.identities.length) : IdentityInv (s.accountTx cert) := by
  unfold IdentityState.accountTx
  split
  · refine h.setAccount ?_ _
    rintro _ ⟨⟩
    exact bound_now hc
  · refine h.setAccount ?_ _
    rintro _ ⟨⟩
    exact bound_now hc

theorem IdentityInv.renewedTx (h : IdentityInv s)
    (hc : cert < s.pki.identities.length) (hi : s.pki.identity cert = s.pki.identity serial) :
    IdentityInv (s.renewedTx serial cert) := by
  refine h.setGrant ?_
  intro g hg
  rw [Option.map_eq_some_iff] at hg
  obtain ⟨old, hold, rfl⟩ := hg
  split
  · rename_i hserial
    exact (h.grant old hold).rebind hc (hserial ▸ hi)
  · exact h.grant old hold

theorem IdentityInv.renewUsers (h : IdentityInv s)
    (hc : cert < s.pki.identities.length) (hi : s.pki.identity cert = s.pki.identity serial) :
    IdentityInv (s.renewUsers serial cert) := by
  refine h.setAccount ?_ _
  intro a ha
  rw [Option.map_eq_some_iff] at ha
  obtain ⟨old, hold, rfl⟩ := ha
  split
  · rename_i hserial
    exact (h.account old hold).rebind hc (hserial ▸ hi)
  · exact h.account old hold

theorem IdentityInv.advance (h : IdentityInv s) {i secret : Nat} {inPeriod : Bool}
    (hr : RequestInv s.pki request)
    (hown : ∀ serial cert, request = .renewIssued serial ∨ request = .renewBound serial →
      s.pki.current = some cert → s.pki.identity cert = s.pki.identity serial)
    (hs : s.advance i inPeriod secret request = some s') : IdentityInv s' := by
  cases request with
  | renewFound serial =>
      unfold IdentityState.advance at hs
      dsimp only at hs
      split at hs
      · rename_i pki' hpki
        cases hs
        obtain ⟨hp, he⟩ := renew_spec h.pki hpki
        exact (h.setPki hp he).put (RequestInv.extends hr he)
      · cases hs
        exact h.put trivial
  | renewIssued serial =>
      unfold IdentityState.advance at hs
      dsimp only at hs
      split at hs
      · rename_i cert hcert
        cases hs
        have hcurrent := (eligible_spec hcert).1
        exact h.put ⟨hr, h.pki.current cert hcurrent, hown serial cert (.inl rfl) hcurrent⟩
      · cases hs
        exact h.put hr
  | renewEligible serial cert =>
      cases hs
      exact (h.renewedTx hr.2.1 hr.2.2).put hr.1
  | renewBound serial =>
      unfold IdentityState.advance at hs
      dsimp only at hs
      split at hs
      · rename_i cert hcert
        cases hs
        have hcurrent := (eligible_spec hcert).1
        exact h.put ⟨hr, h.pki.current cert hcurrent, hown serial cert (.inr rfl) hcurrent⟩
      · cases hs
        exact h.put trivial
  | renewEligibleAgain serial cert =>
      cases hs
      exact (h.renewUsers hr.2.1 hr.2.2).put trivial
  | revokeFound =>
      unfold IdentityState.advance at hs
      dsimp only at hs
      split at hs
      · rename_i pki' hpki
        cases hs
        obtain ⟨hp, he⟩ := revoke_spec h.pki hpki
        exact (h.setPki hp he).put trivial
      · cases hs
        exact h.put trivial
  | revokeIssued =>
      cases hs
      exact (h.setGrant (by simp)).put trivial
  | deleteFound =>
      unfold IdentityState.advance at hs
      dsimp only at hs
      split at hs <;> cases hs <;> exact h.put trivial
  | deleteRemoved =>
      cases hs
      exact h.put trivial
  | deleteAccount id =>
      cases hs
      refine (h.setAccount ?_ s.nextAccount).put trivial
      intro a ha
      exact h.account a (Option.filter_eq_some_iff.mp ha).1
  | deleteGrant =>
      cases hs
      exact (h.setGrant (by simp)).put trivial
  | profileEligible cert =>
      cases hs
      exact (h.profileTx secret hr).put trivial
  | accountEligible cert =>
      cases hs
      exact (h.accountTx hr).put trivial
  | authorizing presented grant =>
      cases hs
      exact h.put trivial
  | signingIn account =>
      cases hs
      exact h.put trivial
  | finished => cases hs

theorem identityInv_step (h : IdentityInv s) {label : IdentityStep}
    (hown : OwnCertificate s label) (hs : s.step label = some s') : IdentityInv s' := by
  have hadd {α : Type} {value : Option α} (make : α → Request)
      (hmake : ∀ a, value = some a → RequestInv s.pki (make a))
      (hs : (value.map fun a => s.add (make a)) = some s') : IdentityInv s' := by
    rw [Option.map_eq_some_iff] at hs
    obtain ⟨a, ha, rfl⟩ := hs
    exact h.add (hmake a ha)
  have heligible {inPeriod : Bool} {cert : Nat} (hc : s.pki.eligible inPeriod = some cert) :
      cert < s.pki.identities.length := h.pki.current cert (eligible_spec hc).1
  cases label with
  | create =>
      simp only [IdentityState.step, Option.map_eq_some_iff] at hs
      obtain ⟨pki', hpki, rfl⟩ := hs
      obtain ⟨hp, he⟩ := create_spec h.pki hpki
      exact h.setPki hp he
  | relayRevoke =>
      cases hs
      exact h.setGrant (by simp)
  | revokePrevious =>
      simp only [IdentityState.step, Option.map_eq_some_iff] at hs
      obtain ⟨pki', hpki, rfl⟩ := hs
      obtain ⟨hp, he, _⟩ := revokePrevious_spec h.pki hpki
      exact h.setPki hp he
  | renew => exact hadd .renewFound (fun serial hc => h.pki.current serial hc) hs
  | revoke => exact hadd (fun _ => .revokeFound) (fun _ _ => trivial) hs
  | delete =>
      simp only [IdentityState.step] at hs
      split at hs
      · cases hs
        exact h.add trivial
      · cases hs
  | profile inPeriod => exact hadd .profileEligible (fun cert hc => heligible hc) hs
  | setPortalAccount inPeriod => exact hadd .accountEligible (fun cert hc => heligible hc) hs
  | authorize secret => exact hadd (.authorizing secret) (fun grant hg => h.grant grant hg) hs
  | signIn => exact hadd .signingIn (fun account ha => h.account account ha) hs
  | next i inPeriod secret =>
      simp only [IdentityState.step] at hs
      split at hs
      · rename_i request hr
        refine h.advance (h.requests i request hr) ?_ hs
        rintro serial cert (rfl | rfl) hc
        · exact hown serial cert (.inl hr) hc
        · exact hown serial cert (.inr hr) hc
      · cases hs

-- In every run in which renewals only ever see certificates of the identity they
-- were asked for, a credential is accepted only for the identity it was made
-- for, while that identity's certificate is current, valid and not revoked.
theorem credentials_stay_with_identity
    (hr : Reaches IdentityState.step OwnCertificate IdentityState.init s) (i : Nat)
    (inPeriod : Bool) :
    (∀ secret grant, s.requests[i]? = some (.authorizing secret grant) →
      s.authorizes secret grant inPeriod = true →
      ∃ serial owner, s.pki.current = some serial ∧ serial ∉ s.pki.revoked ∧ inPeriod = true ∧
        s.pki.identity serial = some owner ∧ grant.madeFor = some owner) ∧
    (∀ account, s.requests[i]? = some (.signingIn account) →
      s.admits account inPeriod = true →
      ∃ serial owner, s.pki.current = some serial ∧ serial ∉ s.pki.revoked ∧ inPeriod = true ∧
        s.pki.identity serial = some owner ∧ account.madeFor = some owner) := by
  have h : IdentityInv s := by
    refine hr.invariant ?_ ?_
    · intro before label after h hown hs
      exact identityInv_step h hown hs
    · exact ⟨⟨by simp [IdentityState.init, Pki.empty], by simp [IdentityState.init, Pki.empty,
        Pki.identity]⟩, by simp [IdentityState.init], by simp [IdentityState.init],
        by simp [IdentityState.init]⟩
  have hcurrent {serial : Nat} {madeFor : Option Nat} (hb : Bound s.pki serial madeFor)
      (he : s.pki.eligible inPeriod = some serial) :
      ∃ serial owner, s.pki.current = some serial ∧ serial ∉ s.pki.revoked ∧ inPeriod = true ∧
        s.pki.identity serial = some owner ∧ madeFor = some owner := by
    obtain ⟨hc, hrevoked, hperiod⟩ := eligible_spec he
    obtain ⟨owner, hid⟩ : ∃ owner, s.pki.identity serial = some owner :=
      ⟨_, List.getElem?_eq_getElem hb.1⟩
    refine ⟨serial, owner, hc, hrevoked, hperiod, hid, ?_⟩
    rw [hb.current hc, ← hid]
    simp [Pki.currentIdentity, hc]
  refine ⟨?_, ?_⟩
  · intro secret grant hreq hacc
    simp only [IdentityState.authorizes, Bool.and_eq_true, decide_eq_true_eq] at hacc
    exact hcurrent (h.requests i _ hreq) hacc.2
  · intro account hreq hacc
    simp only [IdentityState.admits, decide_eq_true_eq] at hacc
    exact hcurrent (h.requests i _ hreq) hacc

end Requests

-- A renew request has looked the client up; before it renews, the client is
-- revoked and created again.
def renewAcrossIdentities : List IdentityStep :=
  [.create, .setPortalAccount true, .next 0 true 0, .renew, .revoke, .next 2 true 0,
    .next 2 true 0, .create, .next 1 true 0, .next 1 true 0, .next 1 true 0, .next 1 true 0,
    .next 1 true 0, .signIn]

def afterRenewAcrossIdentities : IdentityState :=
  { pki := ⟨some 2, some 1, [0, 1, 1], [0]⟩, grant := none, account := some ⟨1, 2, some 0⟩
    nextAccount := 2
    requests := [.finished, .finished, .finished, .signingIn ⟨1, 2, some 0⟩] }

theorem renewAcrossIdentities_run :
    runSteps IdentityState.step IdentityState.init renewAcrossIdentities =
      some afterRenewAcrossIdentities := by decide

theorem former_account_admitted_as_new_identity :
    ¬∀ (s : IdentityState) (i : Nat) (inPeriod : Bool),
      Reaches IdentityState.step (fun _ _ => True) IdentityState.init s →
      (∀ secret grant, s.requests[i]? = some (.authorizing secret grant) →
        s.authorizes secret grant inPeriod = true →
        ∃ serial owner, s.pki.current = some serial ∧ serial ∉ s.pki.revoked ∧ inPeriod = true ∧
          s.pki.identity serial = some owner ∧ grant.madeFor = some owner) ∧
      (∀ account, s.requests[i]? = some (.signingIn account) →
        s.admits account inPeriod = true →
        ∃ serial owner, s.pki.current = some serial ∧ serial ∉ s.pki.revoked ∧ inPeriod = true ∧
          s.pki.identity serial = some owner ∧ account.madeFor = some owner) := by
  intro h
  have hrun := Reaches.of_runSteps renewAcrossIdentities_run
    (AllowedRun.of_runSteps renewAcrossIdentities_run)
  obtain ⟨serial, owner, hc, _, _, hid, hmade⟩ :=
    (h afterRenewAcrossIdentities 3 true hrun).2 ⟨1, 2, some 0⟩ rfl (by decide)
  obtain rfl : 2 = serial := Option.some.inj hc
  obtain rfl : 0 = owner := Option.some.inj hmade
  revert hid
  decide

def renewAlone : List IdentityStep :=
  [.create, .setPortalAccount true, .next 0 true 0, .renew, .next 1 true 0, .next 1 true 0,
    .next 1 true 0, .next 1 true 0, .next 1 true 0, .signIn]

def afterRenewAlone : IdentityState :=
  { pki := ⟨some 1, some 0, [0, 0], []⟩, grant := none, account := some ⟨1, 1, some 0⟩
    nextAccount := 2, requests := [.finished, .finished, .signingIn ⟨1, 1, some 0⟩] }

theorem renewAlone_run :
    runSteps IdentityState.step IdentityState.init renewAlone = some afterRenewAlone := by
  decide

theorem renewAlone_own : AllowedRun IdentityState.step OwnCertificate IdentityState.init
    renewAlone := by
  refine ⟨trivial, trivial, ?_, trivial, ?_, ?_, ?_, ?_, ?_, trivial, trivial⟩ <;>
    rintro serial cert (h | h) hc <;> cases h <;> cases hc <;> rfl

theorem renewed_account_admitted :
    ∃ serial owner, afterRenewAlone.pki.current = some serial ∧
      serial ∉ afterRenewAlone.pki.revoked ∧ true = true ∧
      afterRenewAlone.pki.identity serial = some owner ∧ some 0 = some owner :=
  (credentials_stay_with_identity (Reaches.of_runSteps renewAlone_run renewAlone_own) 2 true).2
    ⟨1, 1, some 0⟩ rfl (by decide)

end OpenvpnServer.Accounts
