import V2xw.Scms.Chains

set_option linter.unusedSectionVars false

/-!
# Cases of the Misbehaviour Authority

The Misbehaviour Authority has one slot for a case, and none of the answers it waits for names the
case it belongs to. What keeps cases apart is that the messages of a case are all there is of the
resolution family while it is open, and that none of them is left when it is done. This file says
which messages these are, phase by phase: a lookup and its answer, a second one and the two
comparisons where two certificates are correlated, the blocklisting, the two seeds, and the entry on
its way to the generator.

## Main definitions

* `Docket` — the entries, decisions and blocklisted devices so far.
* `Phase` — how far a case has come, with the messages in flight for it.
* `EntryFrom` — an entry with the seeds of the two chains of a request.
* `soloCases` — a case is opened only where none is open.

## Main results

* `handle_phase` — handling a message of a case takes it to its next phase.
* `keeps_cases` — the messages in flight are those of one case, in every run.
-/

namespace V2xw.Scms

open V2xw.Core ScmsRun ScmsState

variable {S P : Type}

/-! ## Phases -/

/-- What cases have led to so far. -/
structure Docket where
  entries : List CrlLinkageEntry
  decisions : List Bytes
  blocklist : Finset NodeId

/-- The docket of a state. -/
def ScmsState.docket (s : ScmsState S P) : Docket :=
  ⟨s.crlg.entries, s.ma.decisions, s.ra.blocklist⟩

/-- A docket with one more decision. -/
def Docket.decide (base : Docket) (h : Bytes) : Docket :=
  { base with decisions := base.decisions ++ [h] }

/-- A docket with one more device on the blocklist. -/
def Docket.block (base : Docket) (device : NodeId) : Docket :=
  { base with blocklist := insert device base.blocklist }

/-- A docket with one more entry. -/
def Docket.append (base : Docket) (e : CrlLinkageEntry) : Docket :=
  { base with entries := base.entries ++ [e] }

/-- The chain a lookup names for a Linkage Authority. -/
def PcaLookup.lci (f : PcaLookup) : LaIndex → Lci
  | .one => f.lci1
  | .two => f.lci2

/-- The messages of cases among those in flight. -/
def caseBag (b : Multiset (ScmsPost S P)) : Multiset (ScmsPost S P) :=
  b.filter fun p => p.msg.family = .resolution

/-- The messages of two legs, one for each Linkage Authority. -/
def legPosts (legs : LaIndex → Option (ScmsPost S P)) : Multiset (ScmsPost S P) :=
  ((legs .one).toList ++ (legs .two).toList : List (ScmsPost S P))

variable [AddCommGroup S] [AddCommGroup P]

/-- An answer of the certifying authority that names a request and its chains. -/
def ScmsState.Names (s : ScmsState S P) (f : PcaLookup) (device : NodeId) : Prop :=
  s.Complete f.requestHash device f.lci1 f.lci2

/-- An entry with the seeds of the two chains of a request. -/
def EntryFrom (c : Crypto S P) (s : ScmsState S P) (iRev jmax : ℕ) (f : PcaLookup)
    (e : CrlLinkageEntry) : Prop :=
  ∃ ls₁ ls₂, s.seedAt c .one f.lci1 iRev = some ls₁ ∧ s.seedAt c .two f.lci2 iRev = some ls₂ ∧
    e = entryOf iRev ((s.la .one).laId, ls₁) ((s.la .two).laId, ls₂) jmax

/-- A comparison of two chains: on its way to the Linkage Authority or back, or answered. -/
def CompareLeg (k : Case) (la : LaIndex) : Option (ScmsPost S P) → Prop
  | none => (k.same la).isSome
  | some p => k.same la = none ∧ p.run = k.run ∧
    ((p.dst = nodes.la la ∧ ∃ a b, p.msg = .sameDeviceRequest la a b) ∨
      p.dst = nodes.ma ∧ ∃ x, p.msg = .sameDeviceResponse la x)

/-- A seed: asked for, on its way back, or here. -/
def SeedLeg (c : Crypto S P) (s : ScmsState S P) (k : Case) (f : PcaLookup) (la : LaIndex) :
    Option (ScmsPost S P) → Prop
  | none => ∃ ls, k.seeds la = some ((s.la la).laId, ls) ∧
    s.seedAt c la (f.lci la) k.iRev = some ls
  | some p => k.seeds la = none ∧ p.run = k.run ∧
    ((p.dst = nodes.la la ∧ p.msg = .seedRequest la (f.lci la) k.iRev) ∨
      p.dst = nodes.ma ∧ ∃ ls, s.seedAt c la (f.lci la) k.iRev = some ls ∧
        p.msg = .seedResponse la (s.la la).laId ls k.iRev)

/-- A case in progress, whose lookups name requests. -/
structure InProgress (s : ScmsState S P) (k : Case) : Prop where
  case : s.ma.case = some k
  isOpen : k.done = false
  named : ∀ f ∈ k.lookups, ∃ device, s.Names f device

/-- How a direct case has ended: with nothing, or with one entry for the request found. -/
def Verdict (c : Crypto S P) (base : Docket) (s : ScmsState S P) (k : Case) :
    Option PcaLookup → Prop
  | none => s.docket = base
  | some f => ∃ device e, s.Names f device ∧ EntryFrom c s k.iRev k.jmax f e ∧
    s.docket = ((base.decide f.requestHash).block device).append e

/-- How far the case has come that was opened over a docket: what the certifying authority has
answered about its first subject, if it has, and the messages in flight. -/
inductive Phase (c : Crypto S P) (base : Docket) (s : ScmsState S P) :
    Option (Option PcaLookup) → Multiset (ScmsPost S P) → Prop
  | closed (found : Option (Option PcaLookup)) : caseOpen s = false →
      (∀ k, s.ma.case = some k → k.direct = true → ∃ x, found = some x ∧ Verdict c base s k x) →
      Phase c base s found 0
  | asking {k : Case} {p : ScmsPost S P} : InProgress s k → s.docket = base →
      (∀ la, k.same la = none) → (∀ la, k.seeds la = none) → p.run = k.run →
      (k.lookups = [] ∧ (p.dst = nodes.ma ∨ p.dst = nodes.pca) ∧
          p.msg = .pcaLookupRequest k.subject1.1 k.subject1.2 ∨
        k.direct = false ∧ (∃ a, k.lookups = [a]) ∧ p.dst = nodes.pca ∧
          p.msg = .pcaLookupRequest k.subject2.1 k.subject2.2) →
      Phase c base s (k.lookups.head?.map some) {p}
  | answered {k : Case} {p : ScmsPost S P} {found : Option PcaLookup} : InProgress s k →
      s.docket = base → (∀ la, k.same la = none) → (∀ la, k.seeds la = none) → p.run = k.run →
      (k.lookups = [] ∨ k.direct = false ∧ ∃ a, k.lookups = [a]) → p.dst = nodes.ma →
      p.msg = .pcaLookupResponse found → (∀ f, found = some f → ∃ device, s.Names f device) →
      Phase c base s (some (k.lookups.head?.or found)) {p}
  | comparing {k : Case} {a b : PcaLookup} (legs : LaIndex → Option (ScmsPost S P)) :
      InProgress s k → s.docket = base → (∀ la, k.seeds la = none) → k.direct = false →
      k.lookups = [a, b] → (∀ la, CompareLeg k la (legs la)) → (∃ la, (legs la).isSome) →
      Phase c base s (some (some a)) (legPosts legs)
  | decided {k : Case} {f : PcaLookup} {p : ScmsPost S P} : InProgress s k →
      k.lookups.head? = some f → s.docket = base.decide f.requestHash →
      (∀ la, k.seeds la = none) → p.run = k.run → p.dst = nodes.ra →
      p.msg = .blocklistRequest f.requestHash → Phase c base s (some (some f)) {p}
  | blocked {k : Case} {f : PcaLookup} {device : NodeId} {p : ScmsPost S P} : InProgress s k →
      k.lookups.head? = some f → s.Names f device →
      s.docket = (base.decide f.requestHash).block device → (∀ la, k.seeds la = none) →
      p.run = k.run → p.dst = nodes.ma → p.msg = .blocklistResponse true f.lci1 f.lci2 →
      Phase c base s (some (some f)) {p}
  | releasing {k : Case} {f : PcaLookup} {device : NodeId}
      (legs : LaIndex → Option (ScmsPost S P)) : InProgress s k → k.lookups.head? = some f →
      s.Names f device → s.docket = (base.decide f.requestHash).block device →
      (∀ la, SeedLeg c s k f la (legs la)) → (∃ la, (legs la).isSome) →
      Phase c base s (some (some f)) (legPosts legs)
  | appending {k : Case} {f : PcaLookup} {device : NodeId} {ls₁ ls₂ : LinkageSeed}
      {p : ScmsPost S P} : InProgress s k → k.lookups.head? = some f → s.Names f device →
      s.docket = (base.decide f.requestHash).block device →
      s.seedAt c .one f.lci1 k.iRev = some ls₁ → s.seedAt c .two f.lci2 k.iRev = some ls₂ →
      p.run = k.crlRun → p.dst = nodes.crlg →
      p.msg = .crlAppend k.iRev ((s.la .one).laId, ls₁) ((s.la .two).laId, ls₂) k.jmax →
      Phase c base s (some (some f)) {p}

/-! ## Legs -/

omit [AddCommGroup S] [AddCommGroup P] in
lemma legPosts_some (legs : LaIndex → Option (ScmsPost S P)) (la : LaIndex) (q : ScmsPost S P) :
    legPosts (Function.update legs la (some q)) = q ::ₘ legPosts (Function.update legs la none) := by
  cases la with
  | one => rfl
  | two =>
    unfold legPosts
    rw [Function.update_self, Function.update_self, Function.update_of_ne (by decide),
      Function.update_of_ne (by decide)]
    show (((legs .one).toList ++ [q] : List (ScmsPost S P)) : Multiset (ScmsPost S P)) =
      q ::ₘ (((legs .one).toList ++ [] : List (ScmsPost S P)) : Multiset (ScmsPost S P))
    rw [List.append_nil, Multiset.cons_coe]
    exact Multiset.coe_eq_coe.2 (List.perm_append_singleton _ _)

omit [AddCommGroup S] [AddCommGroup P] in
/-- A message taken out of two legs is that of one of them. -/
lemma exists_leg {legs : LaIndex → Option (ScmsPost S P)} {p : ScmsPost S P}
    {R : Multiset (ScmsPost S P)} (h : p ::ₘ R = legPosts legs) :
    ∃ la, legs la = some p ∧ R = legPosts (Function.update legs la none) := by
  have hmem : p ∈ legPosts legs := h ▸ Multiset.mem_cons_self p R
  obtain ⟨la, hla⟩ : ∃ la, legs la = some p := by
    unfold legPosts at hmem
    rcases List.mem_append.1 (Multiset.mem_coe.1 hmem) with hmem | hmem
    · exact ⟨.one, Option.mem_toList.1 hmem⟩
    · exact ⟨.two, Option.mem_toList.1 hmem⟩
  refine ⟨la, hla, ?_⟩
  have heq := legPosts_some legs la p
  rw [← hla, Function.update_eq_self] at heq
  exact (Multiset.cons_inj_right p).1 (h.trans heq)

omit [AddCommGroup S] [AddCommGroup P] in
lemma legPosts_eq_zero {legs : LaIndex → Option (ScmsPost S P)} (h : ∀ la, legs la = none) :
    legPosts legs = 0 := by
  unfold legPosts
  rw [h, h]
  rfl

omit [AddCommGroup S] [AddCommGroup P] in
lemma eq_none_of_not_exists {legs : LaIndex → Option (ScmsPost S P)}
    (h : ¬∃ la, (legs la).isSome) (la : LaIndex) : legs la = none := by
  cases hl : legs la with
  | none => rfl
  | some q => exact absurd ⟨la, by rw [hl]; rfl⟩ h

/-! ## What other messages leave alone -/

section Steps

variable {c : Crypto S P} {base : Docket} {s s' : ScmsState S P}

lemma ChainsGrow.names (h : ChainsGrow s s') {f : PcaLookup} {device : NodeId}
    (hf : s.Names f device) : s'.Names f device :=
  h.complete _ _ _ _ hf

lemma EntryFrom.mono {iRev jmax : ℕ} {f : PcaLookup} {e : CrlLinkageEntry}
    (h : EntryFrom c s iRev jmax f e) (hgrow : ChainsGrow s s') : EntryFrom c s' iRev jmax f e := by
  obtain ⟨ls₁, ls₂, h₁, h₂, rfl⟩ := h
  refine ⟨ls₁, ls₂, hgrow.seedAt h₁, hgrow.seedAt h₂, ?_⟩
  rw [hgrow.laId, hgrow.laId]

lemma InProgress.mono {k : Case} (h : InProgress s k) (hcase : s'.ma.case = s.ma.case)
    (hgrow : ChainsGrow s s') : InProgress s' k where
  case := hcase.trans h.case
  isOpen := h.isOpen
  named f hf := by
    obtain ⟨device, hd⟩ := h.named f hf
    exact ⟨device, hgrow.names hd⟩

lemma Verdict.mono {k : Case} {x : Option PcaLookup} (h : Verdict c base s k x)
    (hdocket : s'.docket = s.docket) (hgrow : ChainsGrow s s') : Verdict c base s' k x := by
  cases x with
  | none => exact hdocket.trans h
  | some f =>
    obtain ⟨device, e, hnames, hentry, heq⟩ := h
    exact ⟨device, e, hgrow.names hnames, hentry.mono hgrow, hdocket.trans heq⟩

lemma SeedLeg.mono {k : Case} {f : PcaLookup} {la : LaIndex} {leg : Option (ScmsPost S P)}
    (h : SeedLeg c s k f la leg) (hgrow : ChainsGrow s s') : SeedLeg c s' k f la leg := by
  cases leg with
  | none =>
    obtain ⟨ls, hls, hseed⟩ := h
    exact ⟨ls, by rw [hgrow.laId]; exact hls, hgrow.seedAt hseed⟩
  | some p =>
    obtain ⟨hnone, hrun, hreq | ⟨hdst, ls, hseed, hmsg⟩⟩ := h
    · exact ⟨hnone, hrun, .inl hreq⟩
    · exact ⟨hnone, hrun, .inr ⟨hdst, ls, hgrow.seedAt hseed, by rw [hgrow.laId]; exact hmsg⟩⟩

/-- **Other families leave a case where it is.** -/
lemma Phase.mono {found : Option (Option PcaLookup)} {R : Multiset (ScmsPost S P)}
    (h : Phase c base s found R) (hcase : s'.ma.case = s.ma.case) (hdocket : s'.docket = s.docket)
    (hgrow : ChainsGrow s s') : Phase c base s' found R := by
  cases h with
  | closed found hclosed hverdict =>
    refine .closed found ?_ fun k hk hdirect => ?_
    · unfold caseOpen
      rw [hcase]
      exact hclosed
    · obtain ⟨x, hx, hv⟩ := hverdict k (hcase ▸ hk) hdirect
      exact ⟨x, hx, hv.mono hdocket hgrow⟩
  | asking hk hbase hsame hseeds hrun hmsg =>
    exact .asking (hk.mono hcase hgrow) (hdocket.trans hbase) hsame hseeds hrun hmsg
  | answered hk hbase hsame hseeds hrun hlook hdst hmsg hfound =>
    refine .answered (hk.mono hcase hgrow) (hdocket.trans hbase) hsame hseeds hrun hlook hdst hmsg
      fun f hf => ?_
    obtain ⟨device, hd⟩ := hfound f hf
    exact ⟨device, hgrow.names hd⟩
  | comparing legs hk hbase hseeds hdirect hlook hlegs hsome =>
    exact .comparing legs (hk.mono hcase hgrow) (hdocket.trans hbase) hseeds hdirect hlook hlegs
      hsome
  | decided hk hlook hbase hseeds hrun hdst hmsg =>
    exact .decided (hk.mono hcase hgrow) hlook (hdocket.trans hbase) hseeds hrun hdst hmsg
  | blocked hk hlook hnames hbase hseeds hrun hdst hmsg =>
    exact .blocked (hk.mono hcase hgrow) hlook (hgrow.names hnames) (hdocket.trans hbase) hseeds
      hrun hdst hmsg
  | releasing legs hk hlook hnames hbase hlegs hsome =>
    exact .releasing legs (hk.mono hcase hgrow) hlook (hgrow.names hnames) (hdocket.trans hbase)
      (fun la => (hlegs la).mono hgrow) hsome
  | appending hk hlook hnames hbase h₁ h₂ hrun hdst hmsg =>
    refine .appending (hk.mono hcase hgrow) hlook (hgrow.names hnames) (hdocket.trans hbase)
      (hgrow.seedAt h₁) (hgrow.seedAt h₂) hrun hdst ?_
    rw [hgrow.laId, hgrow.laId]
    exact hmsg

/-! ## The messages of a case -/

/-- What handling a message of a case does: none of its posts is lost, the case is in its next
phase, and what the certifying authority has answered stays. -/
structure Advances (c : Crypto S P) (base : Docket) (found : Option (Option PcaLookup))
    (p : ScmsPost S P) (R : Multiset (ScmsPost S P)) (s' : ScmsState S P)
    (posts : List (ScmsPost S P)) : Prop where
  vouched : (scms c).vouched p posts
  phase : ∃ found', (∀ x, found = some x → found' = some x) ∧
    Phase c base s' found' (caseBag (posts : Multiset (ScmsPost S P)) + R)

variable {p : ScmsPost S P} {R : Multiset (ScmsPost S P)} {time : SimTime}
  {cost : OpDescriptor → Duration} {out : Outbox (ScmsMsg S P)} {k : Case}

omit [AddCommGroup S] [AddCommGroup P] in
lemma caseBag_eq_self {l : List (ScmsPost S P)} (h : ∀ q ∈ l, q.msg.family = .resolution) :
    caseBag (l : Multiset (ScmsPost S P)) = l :=
  Multiset.filter_eq_self.2 fun q hq => h q (Multiset.mem_coe.1 hq)

lemma Advances.of_posts {found found' : Option (Option PcaLookup)} {l : List (ScmsPost S P)}
    (hdst : p.dst ∈ nodes.all)
    (hl : ∀ q ∈ l, q.msg.family = .resolution ∧ BackendLinked p.dst q.dst)
    (hfound : ∀ x, found = some x → found' = some x)
    (hphase : Phase c base s' found' ((l : Multiset (ScmsPost S P)) + R)) :
    Advances c base found p R s' l :=
  ⟨⟨hdst, fun q hq => .inl (hl q hq).2⟩, found', hfound, by
    rw [caseBag_eq_self fun q hq => (hl q hq).1]
    exact hphase⟩

lemma Advances.of_single {found found' : Option (Option PcaLookup)} {q : ScmsPost S P}
    (a b : NodeId) (hlink : a ∈ nodes.all ∧ BackendLinked a b) (hp : p.dst = a) (hq : q.dst = b)
    (hfamily : q.msg.family = .resolution) (hfound : ∀ x, found = some x → found' = some x)
    (hphase : Phase c base s' found' (q ::ₘ R)) : Advances c base found p R s' [q] := by
  refine .of_posts (hp ▸ hlink.1) (fun x hx => ?_) hfound hphase
  obtain rfl := List.mem_singleton.1 hx
  exact ⟨hfamily, by rw [hp, hq]; exact hlink.2⟩

/-- The lookup leaves the Misbehaviour Authority, or is answered. -/
lemma advances_asking (hchain : Chained c s) (hk : InProgress s k) (hbase : s.docket = base)
    (hsame : ∀ la, k.same la = none) (hseeds : ∀ la, k.seeds la = none) (hrun : p.run = k.run)
    (hmsg : k.lookups = [] ∧ (p.dst = nodes.ma ∨ p.dst = nodes.pca) ∧
        p.msg = .pcaLookupRequest k.subject1.1 k.subject1.2 ∨
      k.direct = false ∧ (∃ a, k.lookups = [a]) ∧ p.dst = nodes.pca ∧
        p.msg = .pcaLookupRequest k.subject2.1 k.subject2.2)
    (h : s.handle c (p.deliverAt time) (Outbox.new cost) = .ok (s', out)) :
    Advances c base (k.lookups.head?.map some) p 0 s' (out.posts p.dst) := by
  obtain ⟨i, lv, hlookup⟩ : ∃ i lv, (p.deliverAt time).msg = .pcaLookupRequest i lv := by
    rcases hmsg with ⟨-, -, hmsg⟩ | ⟨-, -, -, hmsg⟩
    · exact ⟨_, _, hmsg⟩
    · exact ⟨_, _, hmsg⟩
  simp only [handle, hlookup] at h
  obtain ⟨rfl, rfl⟩ := eq_of_ok h
  unfold onPcaLookupRequest
  by_cases hma : (p.deliverAt time).dst = nodes.ma
  · -- The lookup is on its way to the certifying authority now.
    have hdst : p.dst = nodes.ma := hma
    rcases hmsg with ⟨hnil, -, hmsg⟩ | ⟨-, -, hpca, -⟩
    swap
    · exact absurd (hpca.symm.trans hdst) (by decide)
    rw [if_pos hma]
    exact .of_single nodes.ma nodes.pca (by decide) hdst rfl rfl (fun x hx => hx)
      (.asking hk hbase hsame hseeds hrun (.inl ⟨hnil, .inr rfl, hlookup.symm.trans hmsg⟩))
  · -- The certifying authority answers with what it has stored.
    have hdst : p.dst = nodes.pca := by
      rcases hmsg with ⟨-, hdst | hdst, -⟩ | ⟨-, -, hdst, -⟩
      · exact absurd hdst hma
      · exact hdst
      · exact hdst
    rw [if_neg hma]
    refine .of_single nodes.pca nodes.ma (by decide) hdst rfl rfl ?_
      (.answered hk hbase hsame hseeds hrun ?_ rfl rfl fun f hf => ?_)
    · intro x hx
      obtain ⟨f, hf, rfl⟩ := Option.map_eq_some_iff.1 hx
      rw [hf, Option.some_or]
    · rcases hmsg with ⟨hnil, -, -⟩ | ⟨hdirect, ha, -, -⟩
      · exact .inl hnil
      · exact .inr ⟨hdirect, ha⟩
    · obtain ⟨device, -, hc, -⟩ := hchain.issued _ _ f hf
      exact ⟨device, hc⟩

/-- The answer of the certifying authority ends the case, decides it, or takes it to the next
lookup or to the comparisons. -/
lemma advances_answered {found : Option PcaLookup} (hk : InProgress s k)
    (hbase : s.docket = base) (hsame : ∀ la, k.same la = none) (hseeds : ∀ la, k.seeds la = none)
    (hrun : p.run = k.run) (hlook : k.lookups = [] ∨ k.direct = false ∧ ∃ a, k.lookups = [a])
    (hdst : p.dst = nodes.ma) (hmsg : p.msg = .pcaLookupResponse found)
    (hfound : ∀ f, found = some f → ∃ device, s.Names f device)
    (h : s.handle c (p.deliverAt time) (Outbox.new cost) = .ok (s', out)) :
    Advances c base (some (k.lookups.head?.or found)) p 0 s' (out.posts p.dst) := by
  have hmsg' : (p.deliverAt time).msg = .pcaLookupResponse found := hmsg
  simp only [handle, hmsg'] at h
  obtain ⟨rfl, rfl⟩ := eq_of_ok h
  unfold onPcaLookupResponse
  simp only [hk.case]
  cases found with
  | none =>
    refine .of_posts (l := []) (by rw [hdst]; decide) (by simp) (fun x hx => hx) ?_
    refine .closed _ rfl fun k' hk' hdirect => ?_
    cases hk'
    rcases hlook with hnil | ⟨hfalse, -⟩
    · exact ⟨none, by rw [hnil]; rfl, hbase⟩
    · exact absurd (hfalse.symm.trans hdirect) (by decide)
  | some f =>
    have hnamed : ∀ x ∈ k.lookups ++ [f], ∃ device, s.Names x device := by
      intro x hx
      rcases List.mem_append.1 hx with hx | hx
      · exact hk.named x hx
      · obtain rfl := List.mem_singleton.1 hx
        exact hfound x rfl
    dsimp only
    split
    next hdirect =>
      have hnil : k.lookups = [] := by
        rcases hlook with hnil | ⟨hfalse, -⟩
        · exact hnil
        · exact absurd (hfalse.symm.trans hdirect) (by decide)
      refine .of_single nodes.ma nodes.ra (by decide) hdst rfl rfl (fun x hx => ?_)
        (.decided (f := f) ⟨rfl, hk.isOpen, hnamed⟩ ?_ ?_ hseeds hrun rfl rfl)
      · rw [← hx, hnil]
        rfl
      · rw [hnil]
        rfl
      · rw [← hbase]
        rfl
    next hdirect =>
      rcases hlook with hnil | ⟨-, a, ha⟩
      · simp only [hnil, List.nil_append]
        refine .of_single nodes.ma nodes.pca (by decide) hdst rfl rfl (fun x hx => ?_)
          (.asking (k := { k with lookups := [f] }) ⟨rfl, hk.isOpen, ?_⟩ hbase hsame hseeds hrun
            (.inr ⟨by simpa using hdirect, ⟨f, rfl⟩, rfl, rfl⟩))
        · rw [← hx]
          rfl
        · rw [hnil] at hnamed
          exact hnamed
      · simp only [ha, List.cons_append, List.nil_append]
        set q : LaIndex → ScmsPost S P := fun la =>
          ⟨p.dst, nodes.la la, .sameDeviceRequest la (a.lci la) (f.lci la), p.flow, p.run⟩
        refine .of_posts (l := [q .one, q .two]) (by rw [hdst]; decide) ?_ (fun x hx => ?_)
          (.comparing (k := { k with lookups := [a, f] }) (fun la => some (q la))
            ⟨rfl, hk.isOpen, ?_⟩ hbase hseeds (by simpa using hdirect) rfl
            (fun la => ⟨hsame la, hrun, .inl ⟨rfl, _, _, rfl⟩⟩) ⟨.one, rfl⟩)
        · intro x hx
          rw [hdst]
          rcases List.mem_pair.1 hx with rfl | rfl
          · exact ⟨rfl, show BackendLinked nodes.ma (nodes.la .one) by decide⟩
          · exact ⟨rfl, show BackendLinked nodes.ma (nodes.la .two) by decide⟩
        · rw [← hx]
          rfl
        · rw [ha] at hnamed
          exact hnamed

lemma backendLinked_la (la : LaIndex) :
    nodes.la la ∈ nodes.all ∧ BackendLinked (nodes.la la) nodes.ma := by
  cases la <;> decide

lemma forall_update {Q : LaIndex → Option (ScmsPost S P) → Prop}
    {legs : LaIndex → Option (ScmsPost S P)} {la : LaIndex} {x : Option (ScmsPost S P)}
    (hla : Q la x) (hother : ∀ la', la' ≠ la → Q la' (legs la')) :
    ∀ la', Q la' (Function.update legs la x la') := by
  intro la'
  by_cases h : la' = la
  · subst h
    rw [Function.update_self]
    exact hla
  · rw [Function.update_of_ne h]
    exact hother la' h

/-- A comparison is made, or its answer arrives; the second answer decides the case or ends it. -/
lemma advances_comparing {a b : PcaLookup} {legs : LaIndex → Option (ScmsPost S P)}
    (hk : InProgress s k) (hbase : s.docket = base) (hseeds : ∀ la, k.seeds la = none)
    (hdirect : k.direct = false) (hlook : k.lookups = [a, b])
    (hlegs : ∀ la, CompareLeg k la (legs la)) (hR : p ::ₘ R = legPosts legs)
    (h : s.handle c (p.deliverAt time) (Outbox.new cost) = .ok (s', out)) :
    Advances c base (some (some a)) p R s' (out.posts p.dst) := by
  obtain ⟨la, hla, rfl⟩ := exists_leg hR
  have hleg := hlegs la
  rw [hla] at hleg
  obtain ⟨hnone, hrun, ⟨hdst, x, y, hmsg⟩ | ⟨hdst, x, hmsg⟩⟩ := hleg
  · have hmsg' : (p.deliverAt time).msg = .sameDeviceRequest la x y := hmsg
    simp only [handle, hmsg'] at h
    obtain ⟨rfl, rfl⟩ := eq_of_ok h
    refine .of_single (nodes.la la) nodes.ma (backendLinked_la la) hdst rfl rfl (fun x hx => hx) ?_
    rw [← legPosts_some]
    exact .comparing _ hk hbase hseeds hdirect hlook
      (forall_update ⟨hnone, hrun, .inr ⟨rfl, _, rfl⟩⟩ fun la' _ => hlegs la')
      ⟨la, by rw [Function.update_self]; rfl⟩
  · have hmsg' : (p.deliverAt time).msg = .sameDeviceResponse la x := hmsg
    simp only [handle, hmsg', onSameDeviceResponse, hk.case] at h
    set k' : Case := { k with same := Function.update k.same la (some x) } with hk'
    have hsame' : ∀ la', la' ≠ la → CompareLeg k' la' (legs la') := by
      intro la' hne
      have hsame : k'.same la' = k.same la' := Function.update_of_ne hne ..
      have hold := hlegs la'
      unfold CompareLeg at hold ⊢
      rw [hsame]
      exact hold
    have hself : CompareLeg k' la (none : Option (ScmsPost S P)) := by
      show (Function.update k.same la (some x) la).isSome = true
      rw [Function.update_self]
      rfl
    have hprogress : InProgress (s.withCase k') k' := ⟨rfl, hk.isOpen, hk.named⟩
    have hnew := forall_update (Q := fun la' leg => CompareLeg k' la' leg) hself hsame'
    split at h
    next u v hu hv =>
      -- Both answers are here, so that no leg has a message.
      have hall : ∀ la', Function.update legs la none la' = none := by
        intro la'
        have hleg := hnew la'
        cases hl : Function.update legs la none la' with
        | none => rfl
        | some q =>
          rw [hl] at hleg
          have hsome : k'.same la' ≠ none := by
            cases la' with
            | one => exact fun h => Option.some_ne_none u (hu.symm.trans h)
            | two => exact fun h => Option.some_ne_none v (hv.symm.trans h)
          exact absurd hleg.1 hsome
      rw [legPosts_eq_zero hall]
      simp only [hlook] at h
      split_ifs at h
      · obtain ⟨rfl, rfl⟩ := eq_of_ok h
        refine .of_single nodes.ma nodes.ra (by decide) hdst rfl rfl (fun x hx => hx)
          (.decided (f := a) ⟨rfl, hk.isOpen, fun x hx => hk.named x (hlook ▸ hx)⟩ rfl ?_ hseeds hrun
            rfl rfl)
        rw [← hbase]
        rfl
      · obtain ⟨rfl, rfl⟩ := eq_of_ok h
        refine .of_posts (l := []) (by rw [hdst]; decide) (by simp) (fun x hx => hx) ?_
        refine .closed _ rfl fun k'' hk'' hdirect' => ?_
        cases hk''
        exact absurd (hdirect.symm.trans hdirect') (by decide)
    next hpending =>
      obtain ⟨rfl, rfl⟩ := eq_of_ok h
      refine .of_posts (l := []) (by rw [hdst]; decide) (by simp) (fun x hx => hx) ?_
      rw [Multiset.coe_nil, Multiset.zero_add]
      refine .comparing _ hprogress hbase hseeds hdirect hlook hnew ?_
      -- One of the two answers is missing, and its leg has a message.
      by_contra hall
      have hone := hnew .one
      have htwo := hnew .two
      rw [eq_none_of_not_exists hall] at hone htwo
      obtain ⟨u, hu⟩ := Option.isSome_iff_exists.1 hone
      obtain ⟨v, hv⟩ := Option.isSome_iff_exists.1 htwo
      exact hpending u v hu hv

/-- The device behind the request is blocklisted. -/
lemma advances_decided {f : PcaLookup} (hk : InProgress s k) (hlook : k.lookups.head? = some f)
    (hbase : s.docket = base.decide f.requestHash) (hseeds : ∀ la, k.seeds la = none)
    (hrun : p.run = k.run) (hdst : p.dst = nodes.ra) (hmsg : p.msg = .blocklistRequest f.requestHash)
    (h : s.handle c (p.deliverAt time) (Outbox.new cost) = .ok (s', out)) :
    Advances c base (some (some f)) p 0 s' (out.posts p.dst) := by
  have hmsg' : (p.deliverAt time).msg = .blocklistRequest f.requestHash := hmsg
  obtain ⟨device, hnames⟩ := hk.named f (List.mem_of_mem_head? hlook)
  have hrec : s.ra.requests[f.requestHash]? = some ⟨device, some f.lci1, some f.lci2⟩ := hnames
  simp only [handle, hmsg', onBlocklistRequest, hrec] at h
  obtain ⟨rfl, rfl⟩ := eq_of_ok h
  refine .of_single nodes.ra nodes.ma (by decide) hdst rfl rfl (fun x hx => hx)
    (.blocked ⟨hk.case, hk.isOpen, hk.named⟩ hlook hnames ?_ hseeds hrun rfl rfl)
  rw [← hbase]
  rfl

/-- The two seeds are asked for. -/
lemma advances_blocked {f : PcaLookup} {device : NodeId} (hk : InProgress s k)
    (hlook : k.lookups.head? = some f) (hnames : s.Names f device)
    (hbase : s.docket = (base.decide f.requestHash).block device)
    (hseeds : ∀ la, k.seeds la = none) (hrun : p.run = k.run) (hdst : p.dst = nodes.ma)
    (hmsg : p.msg = .blocklistResponse true f.lci1 f.lci2)
    (h : s.handle c (p.deliverAt time) (Outbox.new cost) = .ok (s', out)) :
    Advances c base (some (some f)) p 0 s' (out.posts p.dst) := by
  have hmsg' : (p.deliverAt time).msg = .blocklistResponse true f.lci1 f.lci2 := hmsg
  simp only [handle, hmsg', onBlocklistResponse, hk.case, if_true] at h
  obtain ⟨rfl, rfl⟩ := eq_of_ok h
  set q : LaIndex → ScmsPost S P := fun la =>
    ⟨p.dst, nodes.la la, .seedRequest la (f.lci la) k.iRev, p.flow, p.run⟩
  refine .of_posts (l := [q .one, q .two]) (by rw [hdst]; decide) (fun x hx => ?_) (fun x hx => hx)
    (.releasing (fun la => some (q la)) hk hlook hnames hbase
      (fun la => ⟨hseeds la, hrun, .inl ⟨rfl, rfl⟩⟩) ⟨.one, rfl⟩)
  rw [hdst]
  rcases List.mem_pair.1 hx with rfl | rfl
  · exact ⟨rfl, show BackendLinked nodes.ma (nodes.la .one) by decide⟩
  · exact ⟨rfl, show BackendLinked nodes.ma (nodes.la .two) by decide⟩

/-- A seed is released, or arrives; with both of them the entry is sent to the generator. -/
lemma advances_releasing {f : PcaLookup} {device : NodeId}
    {legs : LaIndex → Option (ScmsPost S P)} (hchain : Chained c s) (hk : InProgress s k)
    (hlook : k.lookups.head? = some f) (hnames : s.Names f device)
    (hbase : s.docket = (base.decide f.requestHash).block device)
    (hlegs : ∀ la, SeedLeg c s k f la (legs la)) (hR : p ::ₘ R = legPosts legs)
    (h : s.handle c (p.deliverAt time) (Outbox.new cost) = .ok (s', out)) :
    Advances c base (some (some f)) p R s' (out.posts p.dst) := by
  obtain ⟨la, hla, rfl⟩ := exists_leg hR
  have hleg := hlegs la
  rw [hla] at hleg
  obtain ⟨hnone, hrun, ⟨hdst, hmsg⟩ | ⟨hdst, ls, hls, hmsg⟩⟩ := hleg
  · have hmsg' : (p.deliverAt time).msg = .seedRequest la (f.lci la) k.iRev := hmsg
    have hsome : (s.la la).chains[f.lci la]?.isSome := by
      have hlci : (⟨device, some f.lci1, some f.lci2⟩ : RequestRecord).lci la = some (f.lci la) := by
        cases la <;> rfl
      exact (hchain.record _ _ hnames la _ hlci).2
    obtain ⟨ls0, hls0⟩ := Option.isSome_iff_exists.1 hsome
    simp only [handle, hmsg', onSeedRequest, hls0] at h
    obtain ⟨rfl, rfl⟩ := eq_of_ok h
    refine .of_single (nodes.la la) nodes.ma (backendLinked_la la) hdst rfl rfl (fun x hx => hx) ?_
    rw [← legPosts_some]
    refine .releasing _ hk hlook hnames hbase
      (forall_update ⟨hnone, hrun, .inr ⟨rfl, _, ?_, rfl⟩⟩ fun la' _ => hlegs la')
      ⟨la, by rw [Function.update_self]; rfl⟩
    unfold ScmsState.seedAt
    rw [hls0]
    rfl
  · have hmsg' : (p.deliverAt time).msg = .seedResponse la (s.la la).laId ls k.iRev := hmsg
    simp only [handle, hmsg', onSeedResponse, hk.case] at h
    set k' : Case :=
      { k with seeds := Function.update k.seeds la (some ((s.la la).laId, ls)) } with hk'
    have hother : ∀ la', la' ≠ la → SeedLeg c (s.withCase k') k' f la' (legs la') := by
      intro la' hne
      have hseed : k'.seeds la' = k.seeds la' := Function.update_of_ne hne ..
      have hold := hlegs la'
      unfold SeedLeg at hold ⊢
      rw [hseed]
      exact hold
    have hself : SeedLeg c (s.withCase k') k' f la (none : Option (ScmsPost S P)) :=
      ⟨ls, Function.update_self .., hls⟩
    have hprogress : InProgress (s.withCase k') k' := ⟨rfl, hk.isOpen, hk.named⟩
    have hnew := forall_update (Q := fun la' leg => SeedLeg c (s.withCase k') k' f la' leg)
      hself hother
    split at h
    next x y hx hy =>
      -- Both seeds are here, so that no leg has a message.
      have hall : ∀ la', Function.update legs la none la' = none := by
        intro la'
        have hleg := hnew la'
        cases hl : Function.update legs la none la' with
        | none => rfl
        | some q =>
          rw [hl] at hleg
          have hsome : k'.seeds la' ≠ none := by
            cases la' with
            | one => exact fun h => Option.some_ne_none x (hx.symm.trans h)
            | two => exact fun h => Option.some_ne_none y (hy.symm.trans h)
          exact absurd hleg.1 hsome
      have hone := hnew .one
      have htwo := hnew .two
      rw [hall] at hone htwo
      obtain ⟨ls₁, h₁, hseed₁⟩ := hone
      obtain ⟨ls₂, h₂, hseed₂⟩ := htwo
      obtain rfl := Option.some.inj (hx.symm.trans h₁)
      obtain rfl := Option.some.inj (hy.symm.trans h₂)
      rw [legPosts_eq_zero hall]
      obtain ⟨rfl, rfl⟩ := eq_of_ok h
      exact .of_single nodes.ma nodes.crlg (by decide) hdst rfl rfl (fun x hx => hx)
        (.appending hprogress hlook hnames hbase hseed₁ hseed₂ rfl rfl rfl)
    next hpending =>
      obtain ⟨rfl, rfl⟩ := eq_of_ok h
      refine .of_posts (l := []) (by rw [hdst]; decide) (by simp) (fun x hx => hx) ?_
      rw [Multiset.coe_nil, Multiset.zero_add]
      refine .releasing _ hprogress hlook hnames hbase hnew ?_
      by_contra hall
      have hone := hnew .one
      have htwo := hnew .two
      rw [eq_none_of_not_exists hall] at hone htwo
      obtain ⟨ls₁, h₁, -⟩ := hone
      obtain ⟨ls₂, h₂, -⟩ := htwo
      exact hpending _ _ h₁ h₂

/-- The entry is appended, which ends the case. -/
lemma advances_appending {f : PcaLookup} {device : NodeId} {ls₁ ls₂ : LinkageSeed}
    (hk : InProgress s k) (hnames : s.Names f device)
    (hbase : s.docket = (base.decide f.requestHash).block device)
    (h₁ : s.seedAt c .one f.lci1 k.iRev = some ls₁) (h₂ : s.seedAt c .two f.lci2 k.iRev = some ls₂)
    (hdst : p.dst = nodes.crlg)
    (hmsg : p.msg = .crlAppend k.iRev ((s.la .one).laId, ls₁) ((s.la .two).laId, ls₂) k.jmax)
    (h : s.handle c (p.deliverAt time) (Outbox.new cost) = .ok (s', out)) :
    Advances c base (some (some f)) p 0 s' (out.posts p.dst) := by
  have hmsg' : (p.deliverAt time).msg =
      .crlAppend k.iRev ((s.la .one).laId, ls₁) ((s.la .two).laId, ls₂) k.jmax := hmsg
  set e := entryOf k.iRev ((s.la .one).laId, ls₁) ((s.la .two).laId, ls₂) k.jmax with he
  -- Whether the list is published at once or later is of no concern to the case.
  have hclosed : ∀ s' : ScmsState S P, s'.ma = s.endCase.ma → s'.la = s.la → s'.ra = s.ra →
      s'.crlg.entries = s.crlg.entries ++ [e] → Phase c base s' (some (some f)) 0 := by
    intro s' hma hla hra hentries
    have hgrow : ChainsGrow s s' := .same hla (by rw [hra])
    have hcase : s'.ma.case = some { k with done := true } := by
      rw [hma]
      simp only [endCase, hk.case, Option.map_some]
    refine .closed _ ?_ fun k' hk' _ => ⟨some f, rfl, device, e, hgrow.names hnames, ?_, ?_⟩
    · unfold caseOpen
      rw [hcase]
      rfl
    · obtain rfl := Option.some.inj (hcase.symm.trans hk')
      refine ⟨ls₁, ls₂, hgrow.seedAt h₁, hgrow.seedAt h₂, ?_⟩
      rw [hla]
    · have hdocket : s'.docket = s.docket.append e := by
        unfold ScmsState.docket Docket.append
        rw [hentries, hma, hra]
        rfl
      rw [hdocket, hbase]
  simp only [handle, hmsg', onCrlAppend] at h
  have hpub : ∀ (entries : ℕ) (o : Outbox (ScmsMsg S P)), o.sends = [] → o.timers = [] →
      (publish s (p.deliverAt time) o entries).posts p.dst =
        [⟨p.dst, nodes.crlStore, .crlPublish entries, p.flow, p.run⟩,
          ⟨p.dst, nodes.crlBroadcast, .crlPublish entries, p.flow, p.run⟩] := by
    intro entries o hs ht
    simp [publish, Outbox.posts, hs, ht, Outbox.sendPost, Post.deliverAt]
  split_ifs at h
  · obtain ⟨rfl, rfl⟩ := eq_of_ok h
    exact .of_posts (l := []) (by rw [hdst]; decide) (by simp) (fun x hx => hx)
      (hclosed _ rfl rfl rfl rfl)
  · obtain ⟨rfl, rfl⟩ := eq_of_ok h
    refine ⟨⟨by rw [hdst]; decide, fun q hq => .inr ?_⟩, _, fun x hx => hx, ?_⟩
    · obtain rfl := List.mem_singleton.1 hq
      exact ⟨rfl, rfl⟩
    · exact hclosed _ rfl rfl rfl rfl
  · obtain ⟨rfl, rfl⟩ := eq_of_ok h
    rw [hpub _ _ rfl rfl]
    refine ⟨⟨by rw [hdst]; decide, fun q hq => .inl ?_⟩, _, fun x hx => hx, ?_⟩
    · rw [hdst]
      rcases List.mem_pair.1 hq with rfl | rfl
      · exact show BackendLinked nodes.crlg nodes.crlStore by decide
      · exact show BackendLinked nodes.crlg nodes.crlBroadcast by decide
    · exact hclosed _ rfl rfl rfl rfl

/-- **Handling a message of a case takes the case to its next phase.** -/
theorem handle_phase {found : Option (Option PcaLookup)} (hchain : Chained c s)
    (hphase : Phase c base s found (p ::ₘ R))
    (h : s.handle c (p.deliverAt time) (Outbox.new cost) = .ok (s', out)) :
    Advances c base found p R s' (out.posts p.dst) := by
  have hone : ∀ {q : ScmsPost S P}, p ::ₘ R = {q} → p = q ∧ R = 0 := by
    intro q hq
    obtain ⟨rfl, rfl⟩ := (Multiset.singleton_eq_cons_iff R).1 hq.symm
    exact ⟨rfl, rfl⟩
  generalize hR : p ::ₘ R = bag at hphase
  cases hphase with
  | closed => exact absurd hR (Multiset.cons_ne_zero)
  | asking hk hbase hsame hseeds hrun hmsg =>
    obtain ⟨rfl, rfl⟩ := hone hR
    exact advances_asking hchain hk hbase hsame hseeds hrun hmsg h
  | answered hk hbase hsame hseeds hrun hlook hdst hmsg hfound =>
    obtain ⟨rfl, rfl⟩ := hone hR
    exact advances_answered hk hbase hsame hseeds hrun hlook hdst hmsg hfound h
  | comparing legs hk hbase hseeds hdirect hlook hlegs _ =>
    exact advances_comparing hk hbase hseeds hdirect hlook hlegs hR h
  | decided hk hlook hbase hseeds hrun hdst hmsg =>
    obtain ⟨rfl, rfl⟩ := hone hR
    exact advances_decided hk hlook hbase hseeds hrun hdst hmsg h
  | blocked hk hlook hnames hbase hseeds hrun hdst hmsg =>
    obtain ⟨rfl, rfl⟩ := hone hR
    exact advances_blocked hk hlook hnames hbase hseeds hrun hdst hmsg h
  | releasing legs hk hlook hnames hbase hlegs _ =>
    exact advances_releasing hchain hk hlook hnames hbase hlegs hR h
  | appending hk _ hnames hbase h₁ h₂ _ hdst hmsg =>
    obtain ⟨rfl, rfl⟩ := hone hR
    exact advances_appending hk hnames hbase h₁ h₂ hdst hmsg h

/-! ## What a message does to the docket -/

/-- What a case was opened with. -/
def Case.terms (k : Case) :
    FlowRun × FlowRun × (ℕ × LinkageValue) × (ℕ × LinkageValue) × ℕ × ℕ × Bool :=
  (k.run, k.crlRun, k.subject1, k.subject2, k.iRev, k.jmax, k.direct)

/-- No message changes what a case was opened with; decisions and blocklisted devices stay, and a
new entry is one that a message has brought. -/
lemma handle_docket {d : Delivery (ScmsMsg S P)} {out₀ : Outbox (ScmsMsg S P)}
    (h : s.handle c d out₀ = .ok (s', out)) :
    s'.ma.case.map Case.terms = s.ma.case.map Case.terms ∧ s.ma.decisions ⊆ s'.ma.decisions ∧
      s.ra.blocklist ⊆ s'.ra.blocklist ∧
      (s'.crlg.entries = s.crlg.entries ∨ ∃ i la1 la2 jmax, d.msg = .crlAppend i la1 la2 jmax ∧
        s'.crlg.entries = s.crlg.entries ++ [entryOf i la1 la2 jmax]) := by
  by_cases hf : d.msg.family = .resolution
  swap
  · obtain ⟨hcase, hdec, hblock, hentries⟩ := handle_frame_resolution h hf
    exact ⟨by rw [hcase], by rw [hdec]; exact List.Subset.refl _,
      by rw [hblock], .inl hentries⟩
  unfold handle at h
  cases hm : d.msg <;> simp only [hm, ScmsMsg.family, reduceCtorEq, Except.ok.injEq] at hf h
  case crlAppend i la1 la2 jmax =>
    have hcase : s.endCase.ma.case.map Case.terms = s.ma.case.map Case.terms := by
      simp only [endCase, Option.map_map]
      rfl
    unfold onCrlAppend at h
    dsimp only at h
    split_ifs at h <;> cases h <;>
      exact ⟨hcase, List.Subset.refl _, Finset.Subset.refl _, .inr ⟨i, la1, la2, jmax, rfl, rfl⟩⟩
  all_goals
    simp only [onPcaLookupRequest, onPcaLookupResponse, onSameDeviceRequest, onSameDeviceResponse,
      onBlocklistRequest, onBlocklistResponse, onSeedRequest, onSeedResponse, decideCase] at h
    repeat' split at h
  all_goals
    first
    | (cases h; done)
    | (cases h; simp [Case.terms, withCase, *])

lemma handle_resolution_ok {d : Delivery (ScmsMsg S P)} {e : ProtoError}
    {out₀ : Outbox (ScmsMsg S P)} (h : s.handle c d out₀ = .error (.proto e)) :
    d.msg.family ≠ .resolution := by
  unfold handle at h
  cases hm : d.msg <;> simp only [hm, reduceCtorEq] at h <;> simp only [ScmsMsg.family, ne_eq,
    reduceCtorEq, not_false_eq_true, not_true_eq_false]
  case sameDeviceResponse la same =>
    simp only [onSameDeviceResponse] at h
    repeat' split at h
    all_goals cases h

/-! ## Runs -/

omit [AddCommGroup S] [AddCommGroup P] in
lemma caseBag_add (b b' : Multiset (ScmsPost S P)) : caseBag (b + b') = caseBag b + caseBag b' :=
  Multiset.filter_add _ _ _

omit [AddCommGroup S] [AddCommGroup P] in
lemma caseBag_cons_of_pos {q : ScmsPost S P} (hq : q.msg.family = .resolution)
    (b : Multiset (ScmsPost S P)) : caseBag (q ::ₘ b) = q ::ₘ caseBag b :=
  Multiset.filter_cons_of_pos b hq

omit [AddCommGroup S] [AddCommGroup P] in
lemma caseBag_cons_of_neg {q : ScmsPost S P} (hq : q.msg.family ≠ .resolution)
    (b : Multiset (ScmsPost S P)) : caseBag (q ::ₘ b) = caseBag b :=
  Multiset.filter_cons_of_neg b hq

omit [AddCommGroup S] [AddCommGroup P] in
lemma caseBag_eq_zero {l : List (ScmsPost S P)} (h : ∀ q ∈ l, q.msg.family ≠ .resolution) :
    caseBag (l : Multiset (ScmsPost S P)) = 0 :=
  Multiset.filter_eq_nil.2 fun q hq => h q (Multiset.mem_coe.1 hq)

/-- Where no case is open, no message of one is in flight. -/
lemma Phase.eq_zero {found : Option (Option PcaLookup)} (h : Phase c base s found R)
    (hclosed : caseOpen s = false) : R = 0 := by
  have hopen : ∀ {k : Case}, InProgress s k → False := by
    intro k hk
    unfold caseOpen at hclosed
    rw [hk.case] at hclosed
    simp [hk.isOpen] at hclosed
  cases h with
  | closed => rfl
  | asking hk => exact (hopen hk).elim
  | answered hk => exact (hopen hk).elim
  | comparing _ hk => exact (hopen hk).elim
  | decided hk => exact (hopen hk).elim
  | blocked hk => exact (hopen hk).elim
  | releasing _ hk => exact (hopen hk).elim
  | appending hk => exact (hopen hk).elim

/-- A case is opened only where none is open, and requests do not share hashes. -/
def soloCases (c : Crypto S P) : Guard S P
  | .inl (.openCase _ _ _ _ _), s, _ => caseOpen s = false
  | e, s, b => distinctHashes c e s b

lemma soloCases.hashes {e : Event ⊕ ScmsPost S P} {b : Multiset (ScmsPost S P)}
    (h : soloCases c e s b) : distinctHashes c e s b := by
  cases e with
  | inl e => cases e <;> trivial
  | inr p => exact h

lemma phase_openCase {s : ScmsState S P} (a b : ReportSubmission) (iRev jmax : ℕ) (direct : Bool) :
    Phase c s.docket ((Event.openCase a b iRev jmax direct).apply c s).1 none
      (caseBag (((Event.openCase a b iRev jmax direct).apply c s).2 : Multiset (ScmsPost S P))) := by
  rw [caseBag_eq_self]
  · exact .asking (k := caseOf (s.nextRun + 1) (s.nextRun + 2) a b iRev jmax direct)
      ⟨rfl, rfl, fun f hf => absurd hf List.not_mem_nil⟩ rfl (fun _ => rfl) (fun _ => rfl) rfl
      (.inl ⟨rfl, .inl rfl, rfl⟩)
  · intro q hq
    obtain rfl := List.mem_singleton.1 hq
    rfl

/-- **Other messages and calls leave a case in its phase.** -/
lemma phase_other {found : Option (Option PcaLookup)} {e : Event ⊕ ScmsPost S P}
    {b b' : Multiset (ScmsPost S P)} (hstep : (scms c).Step e s b s' b')
    (hG : distinctHashes c e s b) (hchain : ChainInv c s b)
    (hphase : Phase c base s found (caseBag b))
    (hopen : ∀ a b iRev jmax direct, e ≠ .inl (.openCase a b iRev jmax direct))
    (hother : ∀ p, e = .inr p → p.msg.family ≠ .resolution) :
    Phase c base s' found (caseBag b') := by
  cases hstep with
  | act e =>
    show Phase c base (e.apply c s).1 found (caseBag ((e.apply c s).2 + b))
    have hnew : caseBag ((e.apply c s).2 : Multiset (ScmsPost S P)) = 0 := by
      refine caseBag_eq_zero fun q hq => ?_
      cases e with
      | openCase a b iRev jmax direct => exact absurd rfl (hopen a b iRev jmax direct)
      | _ => simp_all [Event.apply, ScmsMsg.family]
    have hsame : ∀ s' : ScmsState S P, s'.ma = s.ma → s'.ra = s.ra → s'.la = s.la →
        s'.crlg = s.crlg → Phase c base s' found (caseBag b) := by
      intro s' hma hra hla hcrlg
      refine hphase.mono (by rw [hma]) ?_ (.same hla (by rw [hra]))
      unfold ScmsState.docket
      rw [hma, hra, hcrlg]
    rw [caseBag_add, hnew, Multiset.zero_add]
    cases e with
    | request device startI periods jmax flow =>
      show Phase c base (s.requested c device startI periods) found (caseBag b)
      unfold ScmsState.requested modifyDevice
      split <;> exact hsame _ rfl rfl rfl rfl
    | openCase a b iRev jmax direct => exact absurd rfl (hopen a b iRev jmax direct)
    | _ => exact hsame _ rfl rfl rfl rfl
  | @react p _ _ b posts kept hr hsub hvouched =>
    have hf := hother p rfl
    rw [caseBag_cons_of_neg hf] at hphase
    cases hr with
    | refused e time cost h =>
      have hkept : kept = [] := List.eq_nil_of_subset_nil hsub.subset
      rw [hkept, Multiset.coe_nil, Multiset.zero_add]
      exact hphase
    | handled time cost h =>
      have hgrow := (handle_chained h hchain.state (hchain.posts p (Multiset.mem_cons_self _ _))
        hG).grow
      obtain ⟨hcase, hdec, hblock, hentries⟩ := handle_frame_resolution h hf
      have hnone : caseBag (kept : Multiset (ScmsPost S P)) = 0 := by
        refine caseBag_eq_zero fun q hq => ?_
        rcases handle_posts p.dst h q (hsub.subset hq) with hq | ⟨hq, -⟩
        · rw [hq]
          exact hf
        · exact absurd hq hf
      rw [caseBag_add, hnone, Multiset.zero_add]
      refine hphase.mono hcase ?_ hgrow
      unfold ScmsState.docket
      rw [hdec, hblock, hentries]

/-- **One step of a case**: whatever happens, the case goes on from its phase, and what the
certifying authority has answered stays. -/
lemma phase_step {found : Option (Option PcaLookup)} {e : Event ⊕ ScmsPost S P}
    {b b' : Multiset (ScmsPost S P)} (hstep : (scms c).Step e s b s' b')
    (hG : distinctHashes c e s b) (hchain : ChainInv c s b)
    (hphase : Phase c base s found (caseBag b))
    (hopen : ∀ a b iRev jmax direct, e ≠ .inl (.openCase a b iRev jmax direct)) :
    ∃ found', (∀ x, found = some x → found' = some x) ∧ Phase c base s' found' (caseBag b') := by
  by_cases hcase : ∃ p, e = .inr p ∧ p.msg.family = .resolution
  swap
  · refine ⟨found, fun x hx => hx, phase_other hstep hG hchain hphase hopen fun p hp hf => ?_⟩
    exact hcase ⟨p, hp, hf⟩
  obtain ⟨p, rfl, hf⟩ := hcase
  cases hstep with
  | @react p _ _ b posts kept hr hsub hvouched =>
    rw [caseBag_cons_of_pos hf] at hphase
    cases hr with
    | refused e time cost h => exact absurd hf (handle_resolution_ok h)
    | handled time cost h =>
      obtain ⟨hv, found', hext, hphase'⟩ := handle_phase hchain.state hphase h
      rw [hvouched hv, caseBag_add]
      exact ⟨found', hext, hphase'⟩

/-- An entry that a case has led to, with terms that meet a condition: the seeds are those of the
chains of one request, its device is blocklisted and the decision is on record. -/
def EntrySound (c : Crypto S P) (T : ℕ → ℕ → Prop) (s : ScmsState S P)
    (e : CrlLinkageEntry) : Prop :=
  T e.i e.jmax ∧ ∃ f device, s.Names f device ∧ EntryFrom c s e.i e.jmax f e ∧
    device ∈ s.ra.blocklist ∧ f.requestHash ∈ s.ma.decisions

/-- The invariant of cases: one phase for everything in flight, and every entry of one case. -/
structure CaseInv (c : Crypto S P) (T : ℕ → ℕ → Prop) (s : ScmsState S P)
    (b : Multiset (ScmsPost S P)) : Prop where
  chain : ChainInv c s b
  phase : ∃ base found, Phase c base s found (caseBag b)
  entries : ∀ e ∈ s.crlg.entries, EntrySound c T s e
  terms : ∀ k, s.ma.case = some k → T k.iRev k.jmax

lemma EntrySound.mono {T : ℕ → ℕ → Prop} {e : CrlLinkageEntry} (h : EntrySound c T s e)
    (hgrow : ChainsGrow s s') (hblock : s.ra.blocklist ⊆ s'.ra.blocklist)
    (hdec : s.ma.decisions ⊆ s'.ma.decisions) : EntrySound c T s' e := by
  obtain ⟨hT, f, device, hnames, hentry, hmem, hhash⟩ := h
  exact ⟨hT, f, device, hgrow.names hnames, hentry.mono hgrow, hblock hmem, hdec hhash⟩

/-- A message that appends an entry is that of a case about to end. -/
lemma Phase.append {found : Option (Option PcaLookup)} (hphase : Phase c base s found (p ::ₘ R))
    {i : ℕ} {la1 la2 : LaId × LinkageSeed} {jmax : ℕ} (hmsg : p.msg = .crlAppend i la1 la2 jmax) :
    ∃ k f device, s.ma.case = some k ∧ s.Names f device ∧ i = k.iRev ∧ jmax = k.jmax ∧
      EntryFrom c s i jmax f (entryOf i la1 la2 jmax) ∧ device ∈ s.ra.blocklist ∧
      f.requestHash ∈ s.ma.decisions := by
  generalize hR : p ::ₘ R = bag at hphase
  have hone : ∀ {q : ScmsPost S P}, p ::ₘ R = {q} → q.msg = .crlAppend i la1 la2 jmax := by
    intro q hq
    obtain ⟨rfl, -⟩ := (Multiset.singleton_eq_cons_iff R).1 hq.symm
    exact hmsg
  cases hphase with
  | closed => exact absurd hR (Multiset.cons_ne_zero)
  | asking _ _ _ _ _ hq =>
    rcases hq with ⟨-, -, hq⟩ | ⟨-, -, -, hq⟩
    · cases hq.symm.trans (hone hR)
    · cases hq.symm.trans (hone hR)
  | answered _ _ _ _ _ _ _ hq => cases hq.symm.trans (hone hR)
  | comparing legs _ _ _ _ _ hlegs =>
    obtain ⟨la, hla, -⟩ := exists_leg hR
    have hleg := hlegs la
    rw [hla] at hleg
    obtain ⟨-, -, ⟨-, x, y, hq⟩ | ⟨-, x, hq⟩⟩ := hleg
    · cases hmsg.symm.trans hq
    · cases hmsg.symm.trans hq
  | decided _ _ _ _ _ _ hq => cases hq.symm.trans (hone hR)
  | blocked _ _ _ _ _ _ _ hq => cases hq.symm.trans (hone hR)
  | releasing legs _ _ _ _ hlegs =>
    obtain ⟨la, hla, -⟩ := exists_leg hR
    have hleg := hlegs la
    rw [hla] at hleg
    obtain ⟨-, -, ⟨-, hq⟩ | ⟨-, ls, -, hq⟩⟩ := hleg
    · cases hmsg.symm.trans hq
    · cases hmsg.symm.trans hq
  | @appending k f device ls₁ ls₂ q hk _ hnames hbase h₁ h₂ _ _ hq =>
    cases hq.symm.trans (hone hR)
    refine ⟨k, f, device, hk.case, hnames, rfl, rfl, ⟨ls₁, ls₂, h₁, h₂, rfl⟩, ?_, ?_⟩
    · have hblock := congrArg Docket.blocklist hbase
      change s.ra.blocklist = insert device base.blocklist at hblock
      rw [hblock]
      exact Finset.mem_insert_self _ _
    · have hdec := congrArg Docket.decisions hbase
      change s.ma.decisions = base.decisions ++ [f.requestHash] at hdec
      rw [hdec]
      exact List.mem_append_right _ List.mem_cons_self

/-- **Cases are kept apart** as long as none is opened while another one is open.

**Proof sketch.** A case that is opened finds no message of another one in flight, for the last one
is done. From then on the messages in flight are those of its phase, and the entry it ends with is
made of the seeds of the chains of the request it has found. -/
theorem keeps_cases (c : Crypto S P) (T : ℕ → ℕ → Prop) :
    (scms c).Keeps (fun e s b => soloCases c e s b ∧
      ∀ a b iRev jmax direct, e = .inl (.openCase a b iRev jmax direct) → T iRev jmax)
      (CaseInv c T) := by
  rintro e s b s' b' hstep ⟨hG, hT⟩ ⟨hchain, ⟨base, found, hphase⟩, hentries, hterms⟩
  have hchain' := keeps_chained c hstep hG.hashes hchain
  by_cases hopen : ∃ a b iRev jmax direct, e = .inl (.openCase a b iRev jmax direct)
  · obtain ⟨a, b, iRev, jmax, direct, rfl⟩ := hopen
    cases hstep with
    | act =>
      refine ⟨hchain', ⟨s.docket, none, ?_⟩, fun e he => ?_, fun k hk => ?_⟩
      · rw [caseBag_add, hphase.eq_zero hG]
        exact phase_openCase a b iRev jmax direct
      · exact (hentries e he).mono (.same rfl rfl) (Finset.Subset.refl _) (List.Subset.refl _)
      · cases hk
        exact hT _ _ _ _ _ rfl
  · push Not at hopen
    obtain ⟨found', -, hphase'⟩ := phase_step hstep hG.hashes hchain hphase hopen
    suffices hrest : (∀ e ∈ s'.crlg.entries, EntrySound c T s' e) ∧
        ∀ k, s'.ma.case = some k → T k.iRev k.jmax from
      ⟨hchain', ⟨base, found', hphase'⟩, hrest.1, hrest.2⟩
    cases hstep with
    | act e =>
      show (∀ x ∈ (e.apply c s).1.crlg.entries, EntrySound c T (e.apply c s).1 x) ∧ _
      have hsame : ∀ s' : ScmsState S P, s'.ma = s.ma → s'.ra = s.ra → s'.la = s.la →
          s'.crlg = s.crlg → (∀ x ∈ s'.crlg.entries, EntrySound c T s' x) ∧
            ∀ k, s'.ma.case = some k → T k.iRev k.jmax := by
        intro s' hma hra hla hcrlg
        refine ⟨fun x hx => (hentries x (hcrlg ▸ hx)).mono (.same hla (by rw [hra])) (by rw [hra])
          (by rw [hma]; exact List.Subset.refl _), by rw [hma]; exact hterms⟩
      cases e with
      | request device startI periods jmax flow =>
        show (∀ x ∈ (s.requested c device startI periods).crlg.entries,
          EntrySound c T (s.requested c device startI periods) x) ∧ ∀ k,
            (s.requested c device startI periods).ma.case = some k → T k.iRev k.jmax
        unfold ScmsState.requested modifyDevice
        split <;> exact hsame _ rfl rfl rfl rfl
      | openCase a b iRev jmax direct => exact absurd rfl (hopen a b iRev jmax direct)
      | _ => exact hsame _ rfl rfl rfl rfl
    | @react p _ _ b posts kept hr hsub hvouched =>
      cases hr with
      | refused e time cost h => exact ⟨hentries, hterms⟩
      | handled time cost h =>
        have hgrow := (handle_chained h hchain.state (hchain.posts p (Multiset.mem_cons_self _ _))
          hG.hashes).grow
        obtain ⟨hcase, hdec, hblock, hnew⟩ := handle_docket h
        refine ⟨fun e he => ?_, fun k' hk' => ?_⟩
        · rcases hnew with hnew | ⟨i, la1, la2, jmax, hmsg, hnew⟩
          · exact (hentries e (hnew ▸ he)).mono hgrow hblock hdec
          · rw [hnew] at he
            rcases List.mem_append.1 he with he | he
            · exact (hentries e he).mono hgrow hblock hdec
            · obtain rfl := List.mem_singleton.1 he
              have hmsg' : p.msg = .crlAppend i la1 la2 jmax := hmsg
              rw [caseBag_cons_of_pos (by rw [hmsg']; rfl)] at hphase
              obtain ⟨k, f, device, hk, hnames, rfl, rfl, hentry, hmem, hhash⟩ :=
                hphase.append hmsg'
              refine ⟨hterms k hk, f, device, hgrow.names hnames, hentry.mono hgrow, hblock hmem,
                hdec hhash⟩
        · rw [hk', Option.map_some, eq_comm, Option.map_eq_some_iff] at hcase
          obtain ⟨k, hk, hterm⟩ := hcase
          simp only [Case.terms, Prod.mk.injEq] at hterm
          rw [← hterm.2.2.2.2.1, ← hterm.2.2.2.2.2.1]
          exact hterms k hk

end Steps

/-! ## Entries of runs -/

/-- The calls that open a case with a first revoked period and a number of certificates. -/
def Op.opensCase (i j : ℕ) : Op → Bool
  | .investigate _ _ iRev jmax | .revoke _ iRev jmax => iRev == i && jmax == j
  | _ => false

section Runs

variable {c : Crypto S P} {charge : String → OpDescriptor → Duration} {certs : CertificateSizes}
  {params : ScmsParams} {t0 : SimTime}

lemma CaseInv.withParams {T : ℕ → ℕ → Prop} {s : ScmsState S P} {b : Multiset (ScmsPost S P)}
    (h : CaseInv c T s b) (params : ScmsParams) : CaseInv c T { s with params := params } b := by
  obtain ⟨hchain, ⟨base, found, hphase⟩, hentries, hterms⟩ := h
  have hgrow : ChainsGrow s { s with params := params } := .same rfl rfl
  exact ⟨hchain.withParams params, ⟨base, found, hphase.mono rfl rfl hgrow⟩,
    fun e he => (hentries e he).mono hgrow (Finset.Subset.refl _) (List.Subset.refl _), hterms⟩

lemma caseBag_preload {b b' : Multiset (ScmsPost S P)} (hb : ∀ p ∈ b, p.msg.family.Preloads) :
    caseBag (b + b') = caseBag b' := by
  have hnone : caseBag b = 0 := by
    refine Multiset.filter_eq_nil.2 fun p hp hf => ?_
    rcases hb p hp with h | h
    · exact absurd (h.symm.trans hf) (by decide)
    · exact absurd (h.symm.trans hf) (by decide)
  rw [caseBag_add, hnone, Multiset.zero_add]

lemma CaseInv.drop {T : ℕ → ℕ → Prop} {s : ScmsState S P} {b b' : Multiset (ScmsPost S P)}
    (hb : ∀ p ∈ b, p.msg.family.Preloads) (h : CaseInv c T s (b + b')) : CaseInv c T s b' := by
  obtain ⟨hchain, ⟨base, found, hphase⟩, hentries, hterms⟩ := h
  rw [caseBag_preload hb] at hphase
  exact ⟨hchain.drop, ⟨base, found, hphase⟩, hentries, hterms⟩

lemma caseInv_new (c : Crypto S P) (T : ℕ → ℕ → Prop) (certs : CertificateSizes)
    (params : ScmsParams) : CaseInv c T (.new certs params) 0 :=
  ⟨chainInv_new c certs params,
    ⟨⟨[], [], ∅⟩, none, .closed _ rfl fun _ hk => (nomatch hk)⟩,
    fun _ he => absurd he List.not_mem_nil, fun _ hk => (nomatch hk)⟩

lemma soloCases_free (c : Crypto S P) (T : ℕ → ℕ → Prop) :
    Guard.Free (fun e s b => soloCases c e s b ∧ ∀ a b' iRev jmax direct,
      e = (.inl (.openCase a b' iRev jmax direct) : Event ⊕ ScmsPost S P) → T iRev jmax) := by
  intro s b
  refine ⟨fun _ => ⟨trivial, ?_⟩, fun _ _ _ => ⟨trivial, ?_⟩, fun _ => ⟨trivial, ?_⟩,
    fun _ => ⟨trivial, ?_⟩, trivial, ?_⟩ <;>
    exact fun a b' iRev jmax direct h => by simp at h

/-- **The invariant of cases holds in every run** in which no case is opened while another one is
open, with terms that are those of the calls made. -/
lemma steps_cases {is : List Op} {os : List (Reply S P)} {D : Driver S P}
    (h : (machine c charge certs params t0).StepsIf (Allowed (soloCases c))
      (machine c charge certs params t0).init is os D) :
    D.Sound ∧ CaseInv c (fun i j => ∃ op ∈ is, op.opensCase i j = true) D.state D.posts := by
  have h' := h.mem.mono fun D op (hop : Allowed (soloCases c) D op ∧ op ∈ is) =>
    Allowed.and (H := fun e _ _ => ∀ a b' iRev jmax direct,
      e = (.inl (.openCase a b' iRev jmax direct) : Event ⊕ ScmsPost S P) →
        ∃ op ∈ is, op.opensCase iRev jmax = true) hop.1 (by
      obtain ⟨-, hmem⟩ := hop
      cases op with
      | investigate a b iRev jmax =>
        intro ra rb _ _ a' b' i j d heq
        simp only [Sum.inl.injEq, Event.openCase.injEq] at heq
        obtain ⟨-, -, rfl, rfl, -⟩ := heq
        exact ⟨_, hmem, by simp [Op.opensCase]⟩
      | revoke index iRev jmax =>
        intro r _ _ a' b' i j d heq
        simp only [Sum.inl.injEq, Event.openCase.injEq] at heq
        obtain ⟨-, -, rfl, rfl, -⟩ := heq
        exact ⟨_, hmem, by simp [Op.opensCase]⟩
      | _ => simp [Allowed])
  exact steps_keeps (keeps_cases c _) (soloCases_free c _) (fun s b params h => h.withParams params)
    (fun s b b' hb h => h.drop hb) (caseInv_new c _ certs params) h'

/-- **No entry mixes two cases.** In every run in which no case is opened while another one is open,
every entry has the seeds of one chain of each Linkage Authority, both of one device, in the first
revoked period of a call that also has its number of certificates; the device is blocklisted, and
one of its requests is among the decisions. -/
theorem entry_of_one_case {is : List Op} {os : List (Reply S P)} {D : Driver S P}
    (h : (machine c charge certs params t0).StepsIf (Allowed (soloCases c))
      (machine c charge certs params t0).init is os D)
    {e : CrlLinkageEntry} (he : e ∈ D.state.crlg.entries) :
    ∃ (l₁ l₂ : Lci) (ls₁ ls₂ : LinkageSeed) (device : NodeId) (hash : Bytes)
      (record : RequestRecord),
      (D.state.la .one).chains[l₁]? = some ls₁ ∧ (D.state.la .one).owner[l₁]? = some device ∧
      (D.state.la .two).chains[l₂]? = some ls₂ ∧ (D.state.la .two).owner[l₂]? = some device ∧
      e.laId1 = (D.state.la .one).laId ∧ e.ls1 = linkageSeedAt c e.laId1 ls₁ e.i ∧
      e.laId2 = (D.state.la .two).laId ∧ e.ls2 = linkageSeedAt c e.laId2 ls₂ e.i ∧
      (∃ op ∈ is, op.opensCase e.i e.jmax = true) ∧ device ∈ D.state.ra.blocklist ∧
      hash ∈ D.state.ma.decisions ∧ D.state.ra.requests[hash]? = some record ∧
      record.device = device := by
  obtain ⟨-, hchain, -, hentries, -⟩ := steps_cases h
  obtain ⟨hop, f, device, hnames, ⟨x₁, x₂, hx₁, hx₂, heq⟩, hblock, hhash⟩ := hentries e he
  obtain ⟨ls₁, hls₁, rfl⟩ := Option.map_eq_some_iff.1 hx₁
  obtain ⟨ls₂, hls₂, rfl⟩ := Option.map_eq_some_iff.1 hx₂
  have hown := hchain.state.record f.requestHash _ hnames
  refine ⟨f.lci1, f.lci2, ls₁, ls₂, device, f.requestHash, _, hls₁, (hown .one _ rfl).1, hls₂,
    (hown .two _ rfl).1, ?_, ?_, ?_, ?_, hop, hblock, hhash, hnames, rfl⟩
  all_goals
    rw [heq]
    rfl

end Runs

/-! ## A case by hand, and two at once -/

/-- A check that implies `soloCases`. -/
def soloCheck (c : Crypto S P) (D : Driver S P) : Op → Bool
  | .investigate _ _ _ _ => !caseOpen D.state
  | .deliver => D.run.kernel.nextDelivery.all fun x =>
    match x.1.delivery.msg with
    | .provisioningRequest req => x.1.delivery.dst == req.device || x.1.delivery.dst == nodes.lop ||
      D.state.ra.requests[requestHash c req]?.isNone
    | _ => true
  | _ => true

lemma allowed_of_soloCheck {c : Crypto S P} {D : Driver S P} {op : Op}
    (h : soloCheck c D op = true) : Allowed (soloCases c) D op := by
  cases op with
  | investigate a b iRev jmax =>
    intro ra rb _ _
    simpa [soloCheck, soloCases] using h
  | revoke index iRev jmax => exact fun r hclosed _ => hclosed
  | deliver =>
    refine ⟨fun q k hq => ?_, fun p _ _ _ => trivial⟩
    simp only [soloCheck, hq, Option.all_some] at h
    show distinctHashes c (.inr q.delivery.post) D.state D.posts
    simp only [distinctHashes, Delivery.post]
    cases hm : q.delivery.msg <;> simp only [hm] at h ⊢
    case provisioningRequest req =>
      intro hdev hlop _
      simp only [Bool.or_eq_true, beq_iff_eq] at h
      rcases h with (h | h) | h
      · exact absurd h hdev
      · exact absurd h hlop
      · exact Option.isNone_iff_eq_none.1 h
  | _ => simp [Allowed, soloCases, distinctHashes]

/-- A case that is left alone ends with an entry of its device. -/
theorem entry_of_one_case_revoked : ∃ is os D e device,
    hand.StepsIf (Allowed (soloCases handCrypto)) hand.init is os D ∧ e ∈ D.state.crlg.entries ∧
      device ∈ D.state.ra.blocklist ∧ ∃ op ∈ is, op.opensCase e.i e.jmax = true := by
  have hrun : (hand.runIf (soloCheck handCrypto) hand.init (revokeOps ++ deliveries 10)).any
      (fun x => !x.2.state.crlg.entries.isEmpty) = true := by
    decide +kernel
  obtain ⟨os, D, h, hne⟩ := Machine.exists_stepsIf (fun _ _ => allowed_of_soloCheck) hrun
  obtain ⟨e, he⟩ : ∃ e, e ∈ D.state.crlg.entries := by
    refine List.exists_mem_of_ne_nil _ fun hnil => ?_
    simp [hnil] at hne
  obtain ⟨-, -, -, -, device, -, -, -, -, -, -, -, -, -, -, hop, hblock, -⟩ := entry_of_one_case h he
  exact ⟨_, os, D, e, device, h, he, hblock, hop⟩

/-- An investigation opened while a case is in progress. -/
def mixedOps : List Op := revokeOps ++ deliveries 6 ++ [.investigate 0 0 5 7] ++ deliveries 60

/-- **An entry of two cases.** The seeds a case has asked for arrive after an investigation has been
opened, and the entry made of them has the first revoked period of the one call and the number of
certificates of the other. -/
theorem entry_of_two_cases : ∃ os D e, hand.Steps hand.init mixedOps os D ∧
    e ∈ D.state.crlg.entries ∧ ∀ op ∈ mixedOps, op.opensCase e.i e.jmax = false := by
  have hrun : (hand.runIf (fun _ _ => true) hand.init mixedOps).any (fun x =>
      x.2.state.crlg.entries.any fun e =>
        mixedOps.all fun op => op.opensCase e.i e.jmax == false) = true := by
    decide +kernel
  obtain ⟨os, D, h, hany⟩ :=
    Machine.exists_stepsIf (G := fun _ _ => True) (fun _ _ _ => trivial) hrun
  obtain ⟨e, he, hall⟩ := List.any_eq_true.1 hany
  exact ⟨os, D, e, h.steps, he, fun op hop => by simpa using List.all_eq_true.1 hall op hop⟩

end V2xw.Scms
