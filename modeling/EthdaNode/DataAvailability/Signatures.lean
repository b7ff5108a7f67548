import EthdaNode.DataAvailability.DataCommittee

/-!
# The signatures of the data committee

`PostSequence` asks every member of the committee for a signature in a goroutine of its own, and
collects their answers from a channel until it has the required number of them, or too many have
failed.
-/

namespace EthdaNode.Availability

open Go State Sequencer List

/-! ## The order of the addresses -/

/-- The letters of the hexadecimal text of an address that are in upper case. -/
abbrev Checksum := Address → ℕ → Bool

variable (checksum : Checksum) (addr : Address)

def hex : List Char :=
  '0' :: 'x' :: (HexText.encodeToString addr.bytes).mapIdx fun i c =>
    if checksum addr i then c.toUpper else c

def toUpper (s : List Char) : List Char := s.map Char.toUpper

def digits : List ℕ := addr.bytes.map UInt8.toNat

lemma toUpper_toUpper : ∀ d < 16,
    (Nat.digitChar d).toUpper.toUpper = (Nat.digitChar d).toUpper := by
  decide

lemma digitChar_toUpper_lt_iff : ∀ d < 16, ∀ e < 16,
    ((Nat.digitChar d).toUpper < (Nat.digitChar e).toUpper ↔ d < e) ∧
    ((Nat.digitChar d).toUpper = (Nat.digitChar e).toUpper ↔ d = e) := by
  decide

lemma toUpper_hex : toUpper (hex checksum addr) = '0' :: 'X' ::
    (HexText.nibbles addr.bytes).map fun d => (Nat.digitChar d).toUpper := by
  have hc : ∀ d ∈ HexText.nibbles addr.bytes, ∀ upper : Bool, (if upper then (Nat.digitChar
      d).toUpper else Nat.digitChar d).toUpper = (Nat.digitChar d).toUpper := by
    intro d hd upper
    cases upper with
    | false => rfl
    | true => exact toUpper_toUpper d (HexText.nibbles_lt _ d hd)
  rw [toUpper, hex, map_cons, map_cons, HexText.encodeToString]
  refine congrArg₂ List.cons (by decide) (congrArg₂ List.cons (by decide) ?_)
  refine ext_getElem (by simp) fun i hi hi' => ?_
  simp only [getElem_mapIdx, getElem_map]
  exact hc _ (getElem_mem _) _

lemma nibbles_lt_iff {bs bs' : List UInt8} (hl : bs.length = bs'.length) :
    ((HexText.nibbles bs).map fun d => (Nat.digitChar d).toUpper) <
    ((HexText.nibbles bs').map fun d => (Nat.digitChar d).toUpper) ↔
    bs.map UInt8.toNat < bs'.map UInt8.toNat := by
  induction bs generalizing bs' with
  | nil =>
    cases bs' with
    | nil => exact iff_of_false (not_lt_nil _) (not_lt_nil _)
    | cons b' bs' => cases hl
  | cons b bs ih =>
    rcases bs' with _ | ⟨b', bs'⟩
    · cases hl
    have hb := b.toNat_lt
    have hb' := b'.toNat_lt
    have hh := digitChar_toUpper_lt_iff (b.toNat / 16) (by omega) (b'.toNat / 16) (by omega)
    have hw := digitChar_toUpper_lt_iff (b.toNat % 16) (by omega) (b'.toNat % 16) (by omega)
    have hr := ih (Nat.succ.inj hl)
    simp only [HexText.nibbles, flatMap_cons, map_cons, cons_append,
      nil_append, cons_lt_cons_iff, hh, hw] at hr ⊢
    rw [hr]
    constructor
    · rintro (h | ⟨h, h' | ⟨h', h''⟩⟩)
      · exact .inl (by omega)
      · exact .inl (by omega)
      · exact .inr ⟨by omega, h''⟩
    rintro (h | ⟨h, h'⟩)
    · by_cases he : b.toNat / 16 = b'.toNat / 16
      · exact .inr ⟨he, .inl (by omega)⟩
      · exact .inl (by omega)
    · exact .inr ⟨by omega, .inr ⟨by omega, h'⟩⟩

structure SignatureMsg where
  addr : Address
  signature : List UInt8
  failed : Bool
  deriving DecidableEq

def less (a b : SignatureMsg) : Bool :=
  decide (toUpper (hex checksum a.addr) < toUpper (hex checksum b.addr))

lemma less_eq (a b : SignatureMsg) :
    less checksum a b = decide (digits a.addr < digits b.addr) := by
  have hl : a.addr.bytes.length = b.addr.bytes.length :=
    a.addr.length_eq.trans b.addr.length_eq.symm
  rw [less, toUpper_hex, toUpper_hex]
  simp only [cons_lt_cons_iff, Char.lt_irrefl, true_and, false_or, nibbles_lt_iff hl]
  rfl

/-- What a member answers: a signature, and the signer that is recovered from it. -/
structure MemberAnswer where
  signSequence : Option (List UInt8)
  signer : Option Address

def requestSignatureFromMember (answer : DataCommitteeMember → MemberAnswer)
    (member : DataCommitteeMember) : SignatureMsg :=
  match (answer member).signSequence with
  | none => ⟨member.addr, [], true⟩
  | some signature =>
    if (answer member).signer ≠ some member.addr then ⟨member.addr, [], true⟩
    else ⟨member.addr, signature, false⟩

/-- `buildSignaturesAndAddrs`. The addresses are different, so that the sorted list is unique. -/
def buildSignaturesAndAddrs (sigs : List SignatureMsg) (members : List DataCommitteeMember) :
    List UInt8 :=
  (sigs.mergeSort fun a b => !less checksum b a).flatMap SignatureMsg.signature ++
    members.flatMap fun member => member.addr.bytes

/-! ## Collecting the answers -/

structure DataCommittee where
  members : List DataCommitteeMember
  requiredSignatures : ℕ

inductive Collector where
  | collecting (msgs : List SignatureMsg) (collectedSignatures failedToCollect : ℕ)
  | finished (result : Except DataError (List UInt8))

variable (committee : DataCommittee)

def Collector.check (msgs : List SignatureMsg) (collectedSignatures failedToCollect : ℕ) :
    Collector :=
  if collectedSignatures < committee.requiredSignatures then
    .collecting msgs collectedSignatures failedToCollect
  else .finished (.ok (buildSignaturesAndAddrs checksum msgs committee.members))

def Collector.receive (msg : SignatureMsg) : Collector → Collector
  | .collecting msgs collectedSignatures failedToCollect =>
    if msg.failed then
      if (committee.members.length : ℤ) - (failedToCollect + 1 : ℕ) <
          committee.requiredSignatures then .finished (.error .tooManyFailed)
      else check checksum committee (msgs ++ [msg]) collectedSignatures (failedToCollect + 1)
    else check checksum committee (msgs ++ [msg]) (collectedSignatures + 1) failedToCollect
  | collector => collector

/-- `PostSequence` while it runs: the members that have not sent their message yet, the channel, and
the loop. -/
structure Posting where
  waiting : List DataCommitteeMember
  channel : List SignatureMsg
  collector : Collector

inductive Event where
  | send (member : DataCommitteeMember)
  | receive

section
variable (checksum : Checksum) (committee : DataCommittee)
  (answer : DataCommitteeMember → MemberAnswer)

/-- A goroutine can send while the channel, with room for a message of every member, is not full. -/
def Posting.step (p : Posting) : Event → Posting
  | .send member =>
    if member ∈ p.waiting ∧ p.channel.length < committee.members.length then
      { p with
        waiting := p.waiting.erase member
        channel := p.channel ++ [requestSignatureFromMember answer member] }
    else p
  | .receive =>
    match p.channel, p.collector with
    | msg :: channel, .collecting msgs collected failed =>
      { p with
        channel
        collector := Collector.receive checksum committee msg (.collecting msgs collected failed) }
    | _, _ => p

def Posting.start : Posting where
  waiting := committee.members
  channel := []
  collector := Collector.check checksum committee [] 0 0

def Posting.run (events : List Event) : Posting :=
  events.foldl (Posting.step checksum committee answer) (Posting.start checksum committee)

def valid (member : DataCommitteeMember) : Bool :=
  !(requestSignatureFromMember answer member).failed

/-- What the collecting loop has found in the messages of the members `received`. -/
def Collector.Agrees (received : List DataCommitteeMember) : Collector → Prop
  | .collecting msgs collected failed =>
    msgs = received.map (requestSignatureFromMember answer) ∧
    collected = received.countP (valid answer) ∧ collected + failed = received.length ∧
    collected < committee.requiredSignatures ∧
    committee.requiredSignatures + failed ≤ committee.members.length
  | .finished (.ok message) =>
    message = buildSignaturesAndAddrs checksum
        (received.map (requestSignatureFromMember answer)) committee.members ∧
      received.countP (valid answer) = committee.requiredSignatures
  | .finished (.error _) =>
    committee.members.length < committee.requiredSignatures +
      (received.length - received.countP (valid answer))

/-- The messages received and those in the channel are those of the members that have answered, in
the order of their answers. -/
structure Posting.Inv (p : Posting) (received queued : List DataCommitteeMember) : Prop where
  members : (received ++ queued ++ p.waiting).Perm committee.members
  channel : p.channel = queued.map (requestSignatureFromMember answer)
  collector : p.collector.Agrees checksum committee answer received

variable {checksum committee answer} {p : Posting} {got queued q : List DataCommitteeMember}

lemma agrees_check {collected failed : ℕ} (hc : collected = received.countP (valid answer))
    (hn : collected + failed = received.length) (he : collected ≤ committee.requiredSignatures)
    (hr : committee.requiredSignatures + failed ≤ committee.members.length) :
    (Collector.check checksum committee (received.map (requestSignatureFromMember answer)) collected
    failed).Agrees checksum committee answer received := by
  rw [Collector.check]
  split_ifs with hl
  · exact ⟨rfl, hc, hn, hl, hr⟩
  · exact ⟨rfl, by omega⟩

lemma Posting.inv_start (hr : committee.requiredSignatures ≤ committee.members.length) :
    Inv checksum committee answer (start checksum committee) [] [] :=
  ⟨Perm.refl _, rfl, agrees_check rfl rfl (Nat.zero_le _) hr⟩

variable {member m : DataCommitteeMember}

lemma Posting.Inv.send (h : Inv checksum committee answer p got q) (hm : m ∈ p.waiting) :
    Inv checksum committee answer
    { p with
    waiting := p.waiting.erase m
    channel := p.channel ++ [requestSignatureFromMember answer m] }
    got (q ++ [m]) := by
  refine ⟨?_, ?_, h.collector⟩
  · refine Perm.trans ?_ h.members
    rw [← append_assoc, append_assoc _ [m]]
    exact Perm.append_left _ (perm_cons_erase hm).symm
  · rw [h.channel, map_append]
    rfl

lemma Posting.Inv.receive {msgs : List SignatureMsg} {collected failed : ℕ}
    (h : Inv checksum committee answer p got (m :: q))
    (hl : p.collector = .collecting msgs collected failed) :
    Inv checksum committee answer
    { p with
      channel := q.map (requestSignatureFromMember answer)
      collector := Collector.receive checksum committee (requestSignatureFromMember answer m)
        (.collecting msgs collected failed) }
    (got ++ [m]) q := by
  refine ⟨by simpa only [append_assoc, singleton_append] using h.members, rfl, ?_⟩
  have ha := h.collector
  rw [hl] at ha
  obtain ⟨rfl, rfl, hn, hls, hr⟩ := ha
  have hm : got.map (requestSignatureFromMember answer) ++ [requestSignatureFromMember answer m] =
      (got ++ [m]).map (requestSignatureFromMember answer) := by
    rw [map_append]
    rfl
  have hc : (got ++ [m]).countP (valid answer) = got.countP (valid answer) +
      if (requestSignatureFromMember answer m).failed then 0 else 1 := by
    rw [countP_append, countP_singleton, valid]
    cases (requestSignatureFromMember answer m).failed <;> rfl
  have hs : (got ++ [m]).length = got.length + 1 := length_append
  dsimp only
  rw [Collector.receive, hm]
  split_ifs with hf ht
  · rw [if_pos hf] at hc
    rw [Collector.Agrees]
    omega
  · rw [if_pos hf] at hc
    exact agrees_check hc.symm (by omega) (by omega) (by omega)
  · rw [if_neg hf] at hc
    exact agrees_check hc.symm (by omega) (by omega) hr

lemma Posting.Inv.step (h : Inv checksum committee answer p got q) (ev : Event) :
    ∃ got q, Inv checksum committee answer (p.step checksum committee answer ev) got q := by
  rcases ev with m | _
  · rw [Posting.step]
    split_ifs with hs
    · exact ⟨got, q ++ [m], h.send hs.1⟩
    · exact ⟨got, q, h⟩
  rw [Posting.step.eq_def]
  have hc := h.channel
  rcases q with _ | ⟨m, q⟩
  · rw [hc]
    exact ⟨got, [], h⟩
  rw [hc]
  cases hl : p.collector with
  | collecting msgs collected failed =>
    exact ⟨got ++ [m], q, h.receive hl⟩
  | finished result => exact ⟨got, m :: q, h⟩

lemma Posting.inv_run (hr : committee.requiredSignatures ≤ committee.members.length) (es :
    List Event) : ∃ got q,
    Inv checksum committee answer (run checksum committee answer es) got q := by
  induction es using List.reverseRecOn with
  | nil => exact ⟨[], [], inv_start hr⟩
  | append_singleton es ev ih =>
    obtain ⟨got, q, h⟩ := ih
    rw [run, foldl_append]
    exact h.step ev

lemma Posting.Inv.length (h : Inv checksum committee answer p got q) :
    got.length + q.length + p.waiting.length = committee.members.length := by
  rw [← h.members.length_eq, length_append, length_append]

lemma Posting.Inv.finishes (h : Inv checksum committee answer p got q) (hw : p.waiting = []) :
    ∃ k result,
    ((List.replicate k Event.receive).foldl (Posting.step checksum committee answer) p).collector =
    .finished result := by
  induction q generalizing p got with
  | nil =>
    have hl := h.length
    rw [hw, length_nil] at hl
    have ha := h.collector
    cases hc : p.collector with
    | collecting msgs collected failed =>
      rw [hc] at ha
      obtain ⟨-, -, hs, hls, hm⟩ := ha
      omega
    | finished result => exact ⟨0, result, hc⟩
  | cons m q ih =>
    cases hc : p.collector with
    | collecting msgs collected failed =>
      obtain ⟨k, result, hr⟩ := ih (h.receive hc) hw
      refine ⟨k + 1, result, ?_⟩
      rw [replicate_succ, foldl_cons, Posting.step.eq_def, h.channel, hc]
      exact hr
    | finished result => exact ⟨0, result, hc⟩

lemma digits_injective {a b : Address} (h : digits a = digits b) : a = b := by
  have hb : a.bytes = b.bytes := map_injective_iff.mpr (fun _ _ => UInt8.toNat_inj.mp) h
  cases a
  cases b
  cases hb
  rfl

/-- The message has the valid signatures in the order of the addresses: the failed answers, which
are sorted with the others, have no signature. -/
lemma buildSignatures_eq (members : List DataCommitteeMember)
    (hds : (got.map DataCommitteeMember.addr).Nodup) : ∃ signed : List DataCommitteeMember,
    signed.Perm (got.filter (valid answer)) ∧
    signed.Pairwise (fun a b => digits a.addr < digits b.addr) ∧
    buildSignaturesAndAddrs checksum (got.map (requestSignatureFromMember answer)) members =
    (signed.flatMap fun m => (requestSignatureFromMember answer m).signature) ++ members.flatMap
    fun m =>
    m.addr.bytes := by
  have hd : ∀ m, (requestSignatureFromMember answer m).addr = m.addr := by
    intro m
    rw [requestSignatureFromMember]
    split
    next => rfl
    next =>
      split_ifs
      · rfl
      · rfl
  have hs : ((got.mergeSort fun a b => decide (digits a.addr ≤ digits b.addr)).map
      (requestSignatureFromMember answer)) =
      (got.map (requestSignatureFromMember answer)).mergeSort fun a b => !less checksum b a := by
    refine map_mergeSort fun a _ b _ => ?_
    rw [less_eq, hd, hd, ← decide_not, decide_eq_decide, not_lt]
  have hp := mergeSort_perm got fun a b => decide (digits a.addr ≤ digits b.addr)
  have hl : (got.mergeSort fun a b => decide (digits a.addr ≤ digits b.addr)).Pairwise
      fun a b => decide (digits a.addr ≤ digits b.addr) = true := by
    refine pairwise_mergeSort (fun a b c ha hb => ?_) (fun a b => ?_) got
    · exact decide_eq_true ((of_decide_eq_true ha).trans (of_decide_eq_true hb))
    · simpa only [Bool.or_eq_true, decide_eq_true_eq] using le_total _ _
  rw [buildSignaturesAndAddrs, ← hs, flatMap_map]
  generalize got.mergeSort (fun a b => decide (digits a.addr ≤ digits b.addr)) = sorted at hp hl
  have ht : sorted.Pairwise fun a b => digits a.addr < digits b.addr := by
    have hdist' := pairwise_map.mp ((hp.map DataCommitteeMember.addr).nodup_iff.mpr hds)
    refine (hl.and hdist').imp fun ha => ?_
    exact lt_of_le_of_ne (of_decide_eq_true ha.1) fun he => ha.2 (digits_injective he)
  refine ⟨sorted.filter (valid answer), hp.filter _, ht.filter _, congrArg (· ++ _) ?_⟩
  clear hs hp hl ht
  induction sorted with
  | nil => rfl
  | cons m sorted ih =>
    rw [flatMap_cons, ih, filter_cons]
    split_ifs with hv
    · rfl
    have hn : (requestSignatureFromMember answer m).signature = [] := by
      rw [valid, requestSignatureFromMember] at hv
      rw [requestSignatureFromMember]
      split at hv
      next => rfl
      next =>
        split_ifs at hv ⊢
        · rfl
        · exact absurd rfl hv
    rw [hn]
    rfl

lemma Posting.Inv.countP (h : Inv checksum committee answer p got q) :
    got.countP (valid answer) ≤ committee.members.countP (valid answer) ∧
    committee.members.countP (valid answer) + (got.length - got.countP (valid answer)) ≤
    committee.members.length := by
  have hl := h.length
  have hr := got.countP_le_length (p := valid answer)
  have hq := q.countP_le_length (p := valid answer)
  have hw := p.waiting.countP_le_length (p := valid answer)
  rw [← h.members.countP_eq, countP_append, countP_append]
  omega

/-- However the answers arrive: no goroutine waits for room in the channel, the loop ends once every
member has answered, and it succeeds exactly if enough members give a valid signature. Then the
message has the signatures of as many different members as are required, in the order of their
addresses, and the addresses of all members. -/
theorem postSequence_collects (checksum : Checksum) (committee : DataCommittee)
    (answer : DataCommitteeMember → MemberAnswer)
    (hdist : (committee.members.map DataCommitteeMember.addr).Nodup)
    (hrequired : committee.requiredSignatures ≤ committee.members.length) (events : List Event) :
    ((Posting.run checksum committee answer events).waiting ≠ [] →
    (Posting.run checksum committee answer events).channel.length < committee.members.length) ∧
    ((Posting.run checksum committee answer events).waiting = [] → ∃ k result,
    (Posting.run checksum committee answer
    (events ++ List.replicate k .receive)).collector = .finished result) ∧
    ∀ result, (Posting.run checksum committee answer events).collector = .finished result →
    ((∃ message, result = .ok message) ↔
    committee.requiredSignatures ≤ committee.members.countP (valid answer)) ∧
    ∀ message, result = .ok message → ∃ signers : List DataCommitteeMember,
    signers.length = committee.requiredSignatures ∧
    (∀ member ∈ signers, member ∈ committee.members ∧ valid answer member = true) ∧
    signers.Pairwise (fun a b => digits a.addr < digits b.addr) ∧
    message = (signers.flatMap fun member =>
    (requestSignatureFromMember answer member).signature) ++
    committee.members.flatMap fun member => member.addr.bytes := by
  have hi : ∃ arrived queued, Posting.Inv checksum committee answer
      (Posting.run checksum committee answer events) arrived queued :=
    Posting.inv_run hrequired events
  obtain ⟨arrived, queued, h⟩ := hi
  refine ⟨fun hw => ?_, fun hw => ?_, fun result hrs => ?_⟩
  · have hl := h.length
    have hps := length_pos_iff.mpr hw
    rw [h.channel, length_map]
    omega
  · obtain ⟨k, result, hrs⟩ := h.finishes hw
    refine ⟨k, result, ?_⟩
    rw [Posting.run, foldl_append]
    exact hrs
  have hag := h.collector
  have hc := h.countP
  rw [hrs] at hag
  rcases result with e | message
  · rw [Collector.Agrees] at hag
    exact ⟨iff_of_false nofun (by omega), nofun⟩
  obtain ⟨rfl, hv⟩ := hag
  refine ⟨iff_of_true ⟨_, rfl⟩ (hv ▸ hc.1), fun message hms => ?_⟩
  cases hms
  have hsb : arrived ⊆ committee.members := fun member hmm =>
    h.members.subset (mem_append_left _ (mem_append_left _ hmm))
  have hn : (arrived.map DataCommitteeMember.addr).Nodup := by
    have hal := (h.members.map DataCommitteeMember.addr).nodup_iff.mpr hdist
    rw [append_assoc, map_append] at hal
    exact hal.of_append_left
  obtain ⟨signers, hpr, hsr, hb⟩ := buildSignatures_eq committee.members hn
  refine ⟨signers, ?_, fun member hmm => ?_, hsr, hb⟩
  · rw [hpr.length_eq, ← countP_eq_length_filter, hv]
  · have hf := mem_filter.mp (hpr.subset hmm)
    exact ⟨hsb hf.1, hf.2⟩
end

def plainMember (id : UInt8) : DataCommitteeMember :=
  ⟨⟨List.replicate 19 0 ++ [id], by simp⟩, "dac"⟩

def twoMembers : DataCommittee := ⟨[plainMember 2, plainMember 1], 1⟩

/-- Only the first member answers with its signature. -/
def firstSigns (member : DataCommitteeMember) : MemberAnswer :=
  ⟨if member = plainMember 1 then some [1] else none, some member.addr⟩

theorem postSequence_collects_twoMembers : ∃ events message,
    (Posting.run (fun _ _ => false) twoMembers firstSigns events).collector =
    .finished (.ok message) := by
  have hd : (twoMembers.members.map DataCommitteeMember.addr).Nodup := by decide
  have hrq : twoMembers.requiredSignatures ≤ twoMembers.members.length := by decide
  have hs := postSequence_collects (fun _ _ => false) twoMembers firstSigns hd hrq
    [.send (plainMember 2), .send (plainMember 1)]
  obtain ⟨k, result, hrs⟩ := hs.2.1 (by decide)
  have hf := (postSequence_collects (fun _ _ => false) twoMembers firstSigns hd
    hrq _).2.2 result hrs
  obtain ⟨message, rfl⟩ := hf.1.mpr (by decide)
  exact ⟨_, message, hrs⟩

end EthdaNode.Availability
