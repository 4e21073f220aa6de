import V2xw.Scms.Cases
import V2xw.Scms.Schedule

set_option linter.unusedSectionVars false

/-!
# Revocations run to a verdict

A case that `revoke` opens is about one certificate: it is looked up, and if it was issued, the
device behind it is blocklisted and its chains are revoked. None of the handlers on this way drops a
message of the case, so that it is done when nothing is left to deliver; and what it has done then
is decided by the answer of the certifying authority alone.

## Main definitions

* `onlyRevokes` — cases are opened with `revoke` only, and requests do not share hashes.
* `Tracked` — the phase of one particular case, for as long as it is in its slot.
* `Foreign`, `Routed` — the way of requests to the Registration Authority.
* `LookedUp` — the lookup of a case along a run, and its answer.

## Main results

* `revoke_runs_to_verdict` — one case at a time, every case done when nothing is scheduled,
  and what it has led to.
-/

namespace V2xw.Scms

open V2xw.Core ScmsRun ScmsState

variable {S P : Type} [AddCommGroup S] [AddCommGroup P]

/-- Cases are opened with `revoke` only, and requests do not share hashes. -/
def onlyRevokes (c : Crypto S P) : Guard S P
  | .inl (.openCase _ _ _ _ direct), _, _ => direct = true
  | e, s, b => distinctHashes c e s b

variable {c : Crypto S P}

lemma Allowed.solo {D : Driver S P} {op : Op} (h : Allowed (onlyRevokes c) D op) :
    Allowed (soloCases c) D op := by
  cases op with
  | investigate a b iRev jmax =>
    exact fun ra rb ha hb => absurd (h ra rb ha hb) (by simp [onlyRevokes])
  | revoke index iRev jmax => exact fun r hclosed _ => hclosed
  | _ => exact h

/-! ## What a phase says about its messages -/

section Phases

variable {base : Docket} {s s' : ScmsState S P} {found : Option (Option PcaLookup)}
  {p : ScmsPost S P} {R : Multiset (ScmsPost S P)}

omit [AddCommGroup S] [AddCommGroup P] in
lemma mem_legPosts {legs : LaIndex → Option (ScmsPost S P)} (h : p ∈ legPosts legs) :
    ∃ la, legs la = some p := by
  obtain ⟨R, hR⟩ := Multiset.exists_cons_of_mem h
  obtain ⟨la, hla, -⟩ := exists_leg hR.symm
  exact ⟨la, hla⟩

/-- The messages of a case carry its run numbers. -/
lemma Phase.runs (h : Phase c base s found R) (hp : p ∈ R) : ∃ k, s.ma.case = some k ∧
    k.done = false ∧ (p.run = k.run ∨ p.run = k.crlRun) := by
  cases h with
  | closed => exact absurd hp (Multiset.notMem_zero p)
  | @asking k q hk _ _ _ hrun =>
    obtain rfl := Multiset.mem_singleton.1 hp
    exact ⟨k, hk.case, hk.isOpen, .inl hrun⟩
  | @answered k q _ hk _ _ _ hrun =>
    obtain rfl := Multiset.mem_singleton.1 hp
    exact ⟨k, hk.case, hk.isOpen, .inl hrun⟩
  | @comparing k _ _ legs hk _ _ _ _ hlegs =>
    obtain ⟨la, hla⟩ := mem_legPosts hp
    have hleg := hlegs la
    rw [hla] at hleg
    exact ⟨k, hk.case, hk.isOpen, .inl hleg.2.1⟩
  | @decided k _ q hk _ _ _ hrun =>
    obtain rfl := Multiset.mem_singleton.1 hp
    exact ⟨k, hk.case, hk.isOpen, .inl hrun⟩
  | @blocked k _ _ q hk _ _ _ _ hrun =>
    obtain rfl := Multiset.mem_singleton.1 hp
    exact ⟨k, hk.case, hk.isOpen, .inl hrun⟩
  | @releasing k _ _ legs hk _ _ _ hlegs =>
    obtain ⟨la, hla⟩ := mem_legPosts hp
    have hleg := hlegs la
    rw [hla] at hleg
    exact ⟨k, hk.case, hk.isOpen, .inl hleg.2.1⟩
  | @appending k _ _ _ _ q hk _ _ _ _ _ hrun =>
    obtain rfl := Multiset.mem_singleton.1 hp
    exact ⟨k, hk.case, hk.isOpen, .inr hrun⟩

lemma legPosts_ne_zero {legs : LaIndex → Option (ScmsPost S P)} (h : ∃ la, (legs la).isSome) :
    legPosts legs ≠ 0 := by
  obtain ⟨la, hla⟩ := h
  obtain ⟨q, hq⟩ := Option.isSome_iff_exists.1 hla
  have heq := legPosts_some legs la q
  rw [← hq, Function.update_eq_self] at heq
  rw [heq]
  exact Multiset.cons_ne_zero

lemma Phase.done (h : Phase c base s found R) (hR : R = 0) : caseOpen s = false := by
  cases h with
  | closed _ hclosed => exact hclosed
  | asking => exact absurd hR (Multiset.singleton_ne_zero _)
  | answered => exact absurd hR (Multiset.singleton_ne_zero _)
  | comparing legs _ _ _ _ _ _ hsome => exact absurd hR (legPosts_ne_zero hsome)
  | decided => exact absurd hR (Multiset.singleton_ne_zero _)
  | blocked => exact absurd hR (Multiset.singleton_ne_zero _)
  | releasing legs _ _ _ _ _ hsome => exact absurd hR (legPosts_ne_zero hsome)
  | appending => exact absurd hR (Multiset.singleton_ne_zero _)

/-- What a direct case has led to once it is done. -/
lemma Phase.verdict (h : Phase c base s found R) {k : Case} (hk : s.ma.case = some k)
    (hdone : k.done = true) (hdirect : k.direct = true) :
    ∃ x, found = some x ∧ Verdict c base s k x := by
  have hopen : ∀ {k' : Case}, InProgress s k' → False := by
    intro k' hk'
    obtain rfl := Option.some.inj (hk.symm.trans hk'.case)
    exact absurd (hk'.isOpen.symm.trans hdone) (by decide)
  cases h with
  | closed _ _ hverdict => exact hverdict k hk hdirect
  | asking hk => exact (hopen hk).elim
  | answered hk => exact (hopen hk).elim
  | comparing _ hk => exact (hopen hk).elim
  | decided hk => exact (hopen hk).elim
  | blocked hk => exact (hopen hk).elim
  | releasing _ hk => exact (hopen hk).elim
  | appending hk => exact (hopen hk).elim

/-- A lookup in flight is all there is of a direct case, and it is about its first subject. -/
lemma Phase.lookup {i : ℕ} {lv : LinkageValue} (h : Phase c base s found (p ::ₘ R))
    (hmsg : p.msg = .pcaLookupRequest i lv) : ∃ k, InProgress s k ∧ s.docket = base ∧ R = 0 ∧
      (∀ la, k.same la = none) ∧ (∀ la, k.seeds la = none) ∧ p.run = k.run ∧
      (p.dst = nodes.ma ∨ p.dst = nodes.pca) ∧
      (k.direct = true → k.lookups = [] ∧ (i, lv) = k.subject1) := by
  generalize hR : p ::ₘ R = bag at h
  have hone : ∀ {q : ScmsPost S P}, p ::ₘ R = {q} → q = p ∧ R = 0 := by
    intro q hq
    exact (Multiset.singleton_eq_cons_iff R).1 hq.symm
  have hother : ∀ {q : ScmsPost S P} {m : ScmsMsg S P}, p ::ₘ R = {q} → q.msg = m →
      m = .pcaLookupRequest i lv := by
    intro q m hq hm
    rw [(hone hq).1] at hm
    exact hm.symm.trans hmsg
  cases h with
  | closed => exact absurd hR Multiset.cons_ne_zero
  | @asking k q hk hbase hsame hseeds hrun hq =>
    obtain ⟨rfl, hzero⟩ := hone hR
    refine ⟨k, hk, hbase, hzero, hsame, hseeds, hrun, ?_⟩
    rcases hq with ⟨hnil, hdst, hq⟩ | ⟨hfalse, -, hdst, -⟩
    · cases hmsg.symm.trans hq
      exact ⟨hdst, fun _ => ⟨hnil, rfl⟩⟩
    · exact ⟨.inr hdst, fun hdirect => absurd (hfalse.symm.trans hdirect) (by decide)⟩
  | answered _ _ _ _ _ _ _ hq => cases hother hR hq
  | comparing legs _ _ _ _ _ hlegs =>
    obtain ⟨la, hla, -⟩ := exists_leg hR
    have hleg := hlegs la
    rw [hla] at hleg
    obtain ⟨-, -, ⟨-, x, y, hq⟩ | ⟨-, x, hq⟩⟩ := hleg
    · cases hmsg.symm.trans hq
    · cases hmsg.symm.trans hq
  | decided _ _ _ _ _ _ hq => cases hother hR hq
  | blocked _ _ _ _ _ _ _ hq => cases hother hR hq
  | releasing legs _ _ _ _ hlegs =>
    obtain ⟨la, hla, -⟩ := exists_leg hR
    have hleg := hlegs la
    rw [hla] at hleg
    obtain ⟨-, -, ⟨-, hq⟩ | ⟨-, ls, -, hq⟩⟩ := hleg
    · cases hmsg.symm.trans hq
    · cases hmsg.symm.trans hq
  | appending _ _ _ _ _ _ _ _ hq => cases hother hR hq

/-- The certifying authority answers a lookup with what it has issued. -/
lemma phase_lookup {i : ℕ} {lv : LinkageValue} {b b' : Multiset (ScmsPost S P)} {k : Case}
    (hstep : (scms c).Step (.inr p) s b s' b') (hchain : ChainInv c s b)
    (hphase : Phase c base s found (caseBag b)) (hmsg : p.msg = .pcaLookupRequest i lv)
    (hdst : p.dst = nodes.pca) (hk : s.ma.case = some k) (hdirect : k.direct = true) :
    Phase c base s' (some s.pca.issued[toLex (i, lv)]?) (caseBag b') := by
  have hfamily : p.msg.family = .resolution := by rw [hmsg]; rfl
  cases hstep with
  | @react p _ _ b posts kept hr hsub hvouched =>
    cases hr with
    | refused e time cost h => exact absurd hfamily (handle_resolution_ok h)
    | @handled s' out time cost h =>
      rw [caseBag_cons_of_pos hfamily] at hphase
      have hv := (handle_phase hchain.state hphase h).vouched
      obtain ⟨k', hk', hbase, hzero, hsame, hseeds, hrun, -, hfirst⟩ := hphase.lookup hmsg
      obtain rfl := Option.some.inj (hk.symm.trans hk'.case)
      obtain ⟨hnil, -⟩ := hfirst hdirect
      have hmsg' : (p.deliverAt time).msg = .pcaLookupRequest i lv := hmsg
      have hne : (p.deliverAt time).dst ≠ nodes.ma := by
        show p.dst ≠ nodes.ma
        rw [hdst]
        decide
      simp only [handle, hmsg', onPcaLookupRequest, if_neg hne] at h
      obtain ⟨rfl, rfl⟩ := eq_of_ok h
      have hanswer : Phase c base s (some (k.lookups.head?.or s.pca.issued[toLex (i, lv)]?))
          {⟨p.dst, nodes.ma, .pcaLookupResponse s.pca.issued[toLex (i, lv)]?, p.flow, p.run⟩} :=
        .answered hk' hbase hsame hseeds hrun (.inl hnil) rfl rfl fun f hf => by
          obtain ⟨device, -, hc, -⟩ := hchain.state.issued _ _ f hf
          exact ⟨device, hc⟩
      rw [hnil] at hanswer
      rw [hvouched hv, caseBag_add, hzero]
      exact hanswer

/-- A lookup that has reached the certifying authority. -/
def AsksPca (p : ScmsPost S P) : Prop := p.dst = nodes.pca ∧ ∃ i lv, p.msg = .pcaLookupRequest i lv

lemma Phase.unasked (h : Phase c base s none (p ::ₘ R)) :
    ∃ i lv, p.msg = .pcaLookupRequest i lv := by
  generalize hR : p ::ₘ R = bag at h
  generalize hnone : (none : Option (Option PcaLookup)) = found at h
  cases h with
  | closed => exact absurd hR Multiset.cons_ne_zero
  | asking hk _ _ _ _ hq =>
    obtain ⟨rfl, -⟩ := (Multiset.singleton_eq_cons_iff R).1 hR.symm
    rcases hq with ⟨-, -, hq⟩ | ⟨-, -, -, hq⟩
    · exact ⟨_, _, hq⟩
    · exact ⟨_, _, hq⟩
  | _ => cases hnone

/-- Until its lookup is handled by the certifying authority, a direct case has no answer. -/
lemma phase_unasked {e : Event ⊕ ScmsPost S P} {b b' : Multiset (ScmsPost S P)} {k : Case}
    (hstep : (scms c).Step e s b s' b') (hG : distinctHashes c e s b) (hchain : ChainInv c s b)
    (hphase : Phase c base s none (caseBag b)) (hk : s.ma.case = some k) (hdirect : k.direct = true)
    (hopen : ∀ a b iRev jmax direct, e ≠ .inl (.openCase a b iRev jmax direct))
    (hask : ∀ p, e = .inr p → ¬AsksPca p) : Phase c base s' none (caseBag b') := by
  by_cases hcase : ∃ p, e = .inr p ∧ p.msg.family = .resolution
  swap
  · exact phase_other hstep hG hchain hphase hopen fun p hp hf => hcase ⟨p, hp, hf⟩
  obtain ⟨p, rfl, hf⟩ := hcase
  cases hstep with
  | @react p _ _ b posts kept hr hsub hvouched =>
    rw [caseBag_cons_of_pos hf] at hphase
    cases hr with
    | refused e time cost h => exact absurd hf (handle_resolution_ok h)
    | @handled s' out time cost h =>
      have hv := (handle_phase hchain.state hphase h).vouched
      obtain ⟨i, lv, hmsg⟩ := hphase.unasked
      obtain ⟨k', hk', hbase, hzero, hsame, hseeds, hrun, hdst, hfirst⟩ := hphase.lookup hmsg
      obtain rfl := Option.some.inj (hk.symm.trans hk'.case)
      obtain ⟨hnil, hsubject⟩ := hfirst hdirect
      -- The lookup is still at the Misbehaviour Authority, which sends it on.
      have hmsg' : (p.deliverAt time).msg = .pcaLookupRequest i lv := hmsg
      have hdst : (p.deliverAt time).dst = nodes.ma :=
        hdst.resolve_right fun hpca => hask p rfl ⟨hpca, i, lv, hmsg⟩
      simp only [handle, hmsg', onPcaLookupRequest, if_pos hdst] at h
      obtain ⟨rfl, rfl⟩ := eq_of_ok h
      have hnext : Phase c base s (k.lookups.head?.map some)
          {⟨p.dst, nodes.pca, .pcaLookupRequest i lv, p.flow, p.run⟩} := by
        refine .asking hk' hbase hsame hseeds hrun (.inl ⟨hnil, .inr rfl, ?_⟩)
        rw [← hsubject]
      rw [hnil] at hnext
      rw [hvouched hv, caseBag_add, hzero]
      exact hnext

end Phases

/-! ## One case along a run -/

section Cases

variable {base : Docket} {s s' : ScmsState S P} {F : Option (Option PcaLookup) → Prop}
  {k₀ : Case}

/-- The case opened as `k₀` over a docket, for as long as it is in its slot: its terms are the same,
and so is what is known of the answer of the certifying authority. -/
structure Tracked (c : Crypto S P) (base : Docket) (k₀ : Case)
    (F : Option (Option PcaLookup) → Prop) (s : ScmsState S P) (b : Multiset (ScmsPost S P)) :
    Prop where
  chain : ChainInv c s b
  numbered : k₀.run ≤ s.nextRun
  phase : ∀ k, s.ma.case = some k → k.run = k₀.run → k.terms = k₀.terms ∧
    ∃ found, F found ∧ Phase c base s found (caseBag b)

/-- Until another case is opened, the terms of the case stay. -/
lemma step_terms {e : Event ⊕ ScmsPost S P} {b b' : Multiset (ScmsPost S P)}
    (hstep : (scms c).Step e s b s' b')
    (hopen : ∀ a b iRev jmax direct, e ≠ .inl (.openCase a b iRev jmax direct)) :
    s'.ma.case.map Case.terms = s.ma.case.map Case.terms ∧ s.nextRun ≤ s'.nextRun := by
  cases hstep with
  | act e =>
    show (e.apply c s).1.ma.case.map Case.terms = _ ∧ s.nextRun ≤ (e.apply c s).1.nextRun
    cases e with
    | request device startI periods jmax flow =>
      show (s.requested c device startI periods).ma.case.map Case.terms = _ ∧
        s.nextRun ≤ (s.requested c device startI periods).nextRun
      unfold ScmsState.requested modifyDevice
      split <;> exact ⟨rfl, Nat.le_succ _⟩
    | openCase a b iRev jmax direct => exact absurd rfl (hopen a b iRev jmax direct)
    | addDevice node => exact ⟨rfl, Nat.le_refl _⟩
    | skip => exact ⟨rfl, Nat.le_add_right _ _⟩
    | _ => exact ⟨rfl, Nat.le_succ _⟩
  | @react p _ _ b posts kept hr hsub hvouched =>
    cases hr with
    | refused e time cost h => exact ⟨rfl, Nat.le_refl _⟩
    | handled time cost h => exact ⟨(handle_docket h).1, (handle_frame h).2.2.ge⟩

/-- **A case is tracked** as long as the steps of its phases keep what is known of the answer. -/
lemma keeps_tracked {G : Guard S P} (hsolo : ∀ e s b, G e s b → soloCases c e s b)
    (hF : ∀ {e s b s' b' k found}, (scms c).Step e s b s' b' → G e s b → ChainInv c s b →
      Phase c base s found (caseBag b) → s.ma.case = some k → k.terms = k₀.terms →
      (∀ a b iRev jmax direct, e ≠ .inl (.openCase a b iRev jmax direct)) → F found →
      ∃ found', F found' ∧ Phase c base s' found' (caseBag b')) :
    (scms c).Keeps G (Tracked c base k₀ F) := by
  rintro e s b s' b' hstep hG ⟨hchain, hnum, hphase⟩
  have hG' := hsolo e s b hG
  have hchain' := keeps_chained c hstep hG'.hashes hchain
  by_cases hopen : ∃ a b iRev jmax direct, e = .inl (.openCase a b iRev jmax direct)
  · -- Another case has another number.
    obtain ⟨a, b, iRev, jmax, direct, rfl⟩ := hopen
    cases hstep with
    | act =>
      refine ⟨hchain', Nat.le_add_right_of_le hnum, fun k hk hrun => ?_⟩
      cases hk
      have hrun' : s.nextRun + 1 = k₀.run := hrun
      exact absurd (hrun' ▸ hnum) (Nat.not_succ_le_self _)
  · push Not at hopen
    have hcase := step_terms hstep hopen
    refine ⟨hchain', hnum.trans hcase.2, fun k hk hrun => ?_⟩
    have hterms := hcase.1
    rw [hk, Option.map_some, eq_comm, Option.map_eq_some_iff] at hterms
    obtain ⟨k', hk', hterms⟩ := hterms
    have hrun' : k'.run = k₀.run := (congrArg Prod.fst hterms).trans hrun
    obtain ⟨hterms', found, hfound, hphase⟩ := hphase k' hk' hrun'
    exact ⟨hterms.symm.trans hterms', hF hstep hG hchain hphase hk' hterms' hopen hfound⟩

lemma Tracked.withParams {b : Multiset (ScmsPost S P)} (h : Tracked c base k₀ F s b)
    (params : ScmsParams) : Tracked c base k₀ F { s with params := params } b := by
  refine ⟨h.chain.withParams params, h.numbered, fun k hk hrun => ?_⟩
  obtain ⟨hterms, found, hfound, hphase⟩ := h.phase k hk hrun
  exact ⟨hterms, found, hfound, hphase.mono rfl rfl (.same rfl rfl)⟩

lemma Tracked.drop {b b' : Multiset (ScmsPost S P)} (hb : ∀ p ∈ b, p.msg.family.Preloads)
    (h : Tracked c base k₀ F s (b + b')) : Tracked c base k₀ F s b' := by
  refine ⟨h.chain.drop, h.numbered, fun k hk hrun => ?_⟩
  obtain ⟨hterms, found, hfound, hphase⟩ := h.phase k hk hrun
  rw [caseBag_preload hb] at hphase
  exact ⟨hterms, found, hfound, hphase⟩

lemma free_soloCases (c : Crypto S P) : (soloCases c).Free := fun _ _ =>
  ⟨fun _ => trivial, fun _ _ _ => trivial, fun _ => trivial, fun _ => trivial, trivial⟩

variable {charge : String → OpDescriptor → Duration} {certs : CertificateSizes}
  {params : ScmsParams} {t0 : SimTime} {D D' : Driver S P}

lemma steps_tracked (hF : ∀ x y, (∀ z, x = some z → y = some z) → F x → F y) {is : List Op}
    {os : List (Reply S P)} (hsound : D.Sound) (hD : Tracked c base k₀ F D.state D.posts)
    (h : (machine c charge certs params t0).StepsIf (Allowed (soloCases c)) D is os D') :
    D'.Sound ∧ Tracked c base k₀ F D'.state D'.posts := by
  refine steps_keeps_from (keeps_tracked (fun _ _ _ hG => hG) ?_) (free_soloCases c)
    (fun s b params h => h.withParams params) (fun s b b' hb h => h.drop hb) hsound hD h
  intro e s b s' b' k found hstep hG hchain hphase _ _ hopen hfound
  obtain ⟨found', hext, hphase'⟩ := phase_step hstep hG.hashes hchain hphase hopen
  exact ⟨found', hF found found' hext hfound, hphase'⟩

/-- The next delivery is a lookup at the certifying authority. -/
def NextAsksPca (D : Driver S P) (op : Op) : Prop :=
  op = .deliver ∧ ∃ q k, D.run.kernel.nextDelivery = some (q, k) ∧ AsksPca q.delivery.post

/-- The steps of `soloCases` that are not lookups at the certifying authority. -/
def unasked (c : Crypto S P) : Guard S P := fun e s b =>
  soloCases c e s b ∧ ∀ p, e = .inr p → ¬AsksPca p

/-- Other operations leave a direct case unanswered. -/
lemma step_unasked {op : Op} {o : Reply S P} (hsound : D.Sound)
    (hD : Tracked c base k₀ (· = none) D.state D.posts) (hdirect : k₀.direct = true)
    (hG : Allowed (soloCases c) D op) (hask : ¬NextAsksPca D op)
    (hstep : (machine c charge certs params t0).step D op = .ok (o, D')) :
    Tracked c base k₀ (· = none) D'.state D'.posts := by
  have hG' : Allowed (unasked c) D op := by
    refine hG.and ?_
    cases op with
    | deliver =>
      refine ⟨fun q k hq p hp hasks => hask ⟨rfl, q, k, hq, ?_⟩, fun _ _ _ _ p hp => (nomatch hp)⟩
      cases hp
      exact hasks
    | investigate => exact fun _ _ _ _ p hp => (nomatch hp)
    | revoke => exact fun _ _ _ p hp => (nomatch hp)
    | preload => exact fun _ p hp => (nomatch hp)
    | addDevice => exact fun p hp => (nomatch hp)
    | provision => exact fun p hp => (nomatch hp)
    | topup => exact fun p hp => (nomatch hp)
    | _ => trivial
  refine (step_keeps (G := unasked c) (keeps_tracked (fun _ _ _ hG => hG.1) ?_) ?_
    (fun s b params h => h.withParams params) (fun s b b' hb h => h.drop hb) hsound hG' hD hstep).2
  · intro e s b s' b' k found hstep hG hchain hphase hk hterms hopen hfound
    obtain ⟨hG, hask⟩ := hG
    obtain rfl := hfound
    have hdirect' : k.direct = true := by
      rw [← hdirect]
      exact congrArg (fun x => x.2.2.2.2.2.2) hterms
    exact ⟨none, rfl, phase_unasked hstep hG.hashes hchain hphase hk hdirect' hopen hask⟩
  · refine fun _ _ => ⟨fun _ => ⟨trivial, ?_⟩, fun _ _ _ => ⟨trivial, ?_⟩, fun _ => ⟨trivial, ?_⟩,
      fun _ => ⟨trivial, ?_⟩, trivial, ?_⟩ <;> exact fun p hp => (nomatch hp)

end Cases

/-! ## Requests of blocklisted devices -/

section Blocklist

variable {s s' : ScmsState S P}

/-- The Registration Authority holds no request of its own node, and blocklists no such device. -/
structure Foreign (s : ScmsState S P) : Prop where
  record : ∀ (h : Bytes) (r : RequestRecord), s.ra.requests[h]? = some r → r.device ≠ nodes.ra
  blocked : ∀ device ∈ s.ra.blocklist, device ≠ nodes.ra

/-- A request is on its way from its device over the privacy proxy. -/
def Routed (p : ScmsPost S P) : Prop :=
  ∀ req, p.msg = .provisioningRequest req →
    p.dst = req.device ∨ p.dst = nodes.lop ∨ p.dst = nodes.ra

lemma Foreign.same (h : Foreign s) (hreq : s'.ra.requests = s.ra.requests)
    (hblock : s'.ra.blocklist = s.ra.blocklist) : Foreign s' :=
  ⟨by rw [hreq]; exact h.record, by rw [hblock]; exact h.blocked⟩

/-- Requests are recorded for other nodes than the authority's own. -/
lemma handle_foreign {p : ScmsPost S P} {time : SimTime} {out out₀ : Outbox (ScmsMsg S P)}
    (hs : Foreign s) (hp : Routed p) (h : s.handle c (p.deliverAt time) out₀ = .ok (s', out)) :
    Foreign s' := by
  have hmsg : (p.deliverAt time).msg = p.msg := rfl
  by_cases hf : p.msg.family = .provisioning
  · obtain ⟨-, -, hblock, -⟩ := handle_frame_resolution h (by rw [hmsg, hf]; decide)
    refine ⟨?_, by rw [hblock]; exact hs.blocked⟩
    unfold handle at h
    cases hm : p.msg <;> simp only [hm, hmsg, ScmsMsg.family, reduceCtorEq] at hf h
    case provisioningRequest req =>
      obtain ⟨rfl, rfl⟩ := eq_of_ok h
      unfold onProvisioningRequest
      split_ifs with hdev hlop
      · exact hs.record
      · exact hs.record
      · unfold onProvisioningRequestAtRa
        split_ifs
        · exact hs.record
        · -- The message has reached the authority, which is not the device it comes from.
          have hra : p.dst = nodes.ra := ((hp req hm).resolve_left hdev).resolve_left hlop
          have hdevice : req.device ≠ nodes.ra := fun heq => hdev (hra.trans heq.symm)
          intro hash r hr
          rw [OrdMap.get_insert] at hr
          split_ifs at hr
          · cases hr
            exact hdevice
          · exact hs.record hash r hr
    case preLinkageResponse batch =>
      unfold onPreLinkageResponse at h
      cases hold : s.ra.jobs.find? (·.run = (p.deliverAt time).run) with
      | none => simp [hold] at h
      | some old =>
        simp only [hold] at h
        cases hrecord : s.ra.requests[(answered batch old).requestHash]? with
        | none =>
          simp only [hrecord] at h
          split_ifs at h <;> cases h <;> exact hs.record
        | some record =>
          have hrec : ∀ (hash : Bytes) (r : RequestRecord),
              (s.ra.requests.insert (answered batch old).requestHash
                (recordChains (answered batch old).lci record))[hash]? = some r →
                r.device ≠ nodes.ra := by
            intro hash r hr
            rw [OrdMap.get_insert] at hr
            split_ifs at hr
            · cases hr
              exact hs.record _ record hrecord
            · exact hs.record hash r hr
          simp only [hrecord] at h
          split_ifs at h <;> cases h <;> exact hrec
    case certRequest device i items =>
      obtain ⟨rng, pca, -, -, rfl, -⟩ := onCertRequest_spec h
      exact hs.record
    all_goals
      simp only [onProvisioningAck, onPreLinkageRequest, onShuffleTimer, onCertResponse,
        onBatchDownloadRequest, onBatchDownload] at h
      repeat' split at h
    all_goals
      first
      | (cases h; done)
      | (cases h; exact hs.record)
  · obtain ⟨-, -, hreq, -⟩ := handle_frame_provisioning h hf
    refine ⟨by rw [hreq]; exact hs.record, ?_⟩
    by_cases hres : p.msg.family = .resolution
    swap
    · rw [(handle_frame_resolution h hres).2.2.1]
      exact hs.blocked
    unfold handle at h
    cases hm : p.msg <;> simp only [hm, hmsg, ScmsMsg.family, reduceCtorEq] at hres h
    case blocklistRequest hash =>
      obtain ⟨rfl, rfl⟩ := eq_of_ok h
      unfold onBlocklistRequest
      cases hr : s.ra.requests[hash]? with
      | none => exact hs.blocked
      | some r =>
        intro device hmem
        rcases Finset.mem_insert.1 hmem with rfl | hmem
        · exact hs.record hash r hr
        · exact hs.blocked device hmem
    all_goals
      simp only [onPcaLookupRequest, onPcaLookupResponse, onSameDeviceRequest,
        onSameDeviceResponse, onBlocklistResponse, onSeedRequest, onSeedResponse, onCrlAppend,
        decideCase] at h
      repeat' split at h
    all_goals
      first
      | (cases h; done)
      | (cases h; exact hs.blocked)

/-- Requests are sent to the privacy proxy and from there to the Registration Authority. -/
lemma handle_routed {d : Delivery (ScmsMsg S P)} {cost : OpDescriptor → Duration}
    {out : Outbox (ScmsMsg S P)} (node : NodeId)
    (h : s.handle c d (Outbox.new cost) = .ok (s', out)) :
    ∀ q ∈ out.posts node, Routed q := by
  by_cases hf : d.msg.family = .provisioning
  swap
  · intro q hq req hmsg
    rcases handle_posts node h q hq with hq | ⟨-, hq⟩
    · exact absurd (hq.symm.trans (by rw [hmsg]; rfl)) hf
    · rw [hmsg] at hq
      cases hq
  unfold handle at h
  cases hm : d.msg <;> simp only [hm, ScmsMsg.family, reduceCtorEq] at hf h
  case shuffleTimer =>
    obtain ⟨rfl, rfl⟩ := eq_of_ok h
    obtain ⟨hsends, htimers⟩ := foldl_releaseJob_spec s d (s.ra.jobs.filter released)
      (Outbox.new cost)
    simp only [Outbox.posts, onShuffleTimer, hsends, htimers, Outbox.sends_new, Outbox.timers_new,
      List.map_nil, List.nil_append, List.mem_map, List.mem_flatMap]
    rintro q ⟨x, ⟨job, -, i, -, rfl⟩, rfl⟩ req hmsg
    cases hmsg
  case certRequest device i items =>
    obtain ⟨-, -, creds, size, -, htimers, hsends⟩ := onCertRequest_spec h
    simp [hsends, htimers, Outbox.posts, Outbox.sendPost, Routed]
  all_goals
    simp only [onProvisioningRequest, onProvisioningRequestAtRa, onProvisioningAck,
      onPreLinkageRequest, onPreLinkageResponse, onCertResponse, onBatchDownloadRequest,
      onBatchDownload, preLinkageRequestTo] at h
    repeat' split at h
  all_goals
    first
    | (cases h; done)
    | (cases h; simp [Outbox.posts, Outbox.timerPost, Outbox.sendPost, Routed])

/-- Requests stay on their way. -/
lemma keeps_foreign (c : Crypto S P) :
    (scms c).Keeps (fun _ _ _ => True) fun s b => Foreign s ∧ ∀ p ∈ b, Routed p := by
  refine Mailbox.Keeps.of_forall (G := fun _ _ _ => True) (L := fun _ p => Routed p) ?_ ?_
  · intro e s b _ hs hb
    refine ⟨?_, ?_, fun p hp => hb p hp⟩
    · cases e with
      | request device startI periods jmax flow =>
        show Foreign (s.requested c device startI periods)
        unfold ScmsState.requested modifyDevice
        split <;> exact hs.same rfl rfl
      | _ => exact hs.same rfl rfl
    · intro p hp req hmsg
      cases e with
      | request device startI periods jmax flow =>
        obtain rfl := List.mem_singleton.1 hp
        cases hmsg
        exact .inl rfl
      | _ => simp_all [scms, Event.apply]
  · intro p s s' posts b hr _ hs hp
    cases hr with
    | refused e time cost h => exact ⟨hs, fun q hq => absurd hq List.not_mem_nil, fun _ _ hq => hq⟩
    | handled time cost h =>
      exact ⟨handle_foreign hs hp h, handle_routed p.dst h, fun _ _ hq => hq⟩

end Blocklist

/-! ## Runs -/

section Runs

variable {charge : String → OpDescriptor → Duration} {certs : CertificateSizes}
  {params : ScmsParams} {t0 : SimTime} {D D' : Driver S P} {is : List Op} {os : List (Reply S P)}

lemma steps_foreign {G : Driver S P → Op → Prop}
    (h : (machine c charge certs params t0).StepsIf G
      (machine c charge certs params t0).init is os D) :
    D.Sound ∧ Foreign D.state ∧ ∀ p ∈ D.posts, Routed p := by
  refine steps_keeps (keeps_foreign c) free_true (fun s b params h => ⟨h.1.same rfl rfl, h.2⟩)
    (fun s b b' _ h => ⟨h.1, fun p hp => h.2 p (Multiset.mem_add.2 (.inr hp))⟩)
    ⟨⟨fun _ _ hr => (nomatch hr), fun _ hd => (nomatch hd)⟩, fun _ hp => (nomatch hp)⟩
    (h.mono fun D op _ => allowed_true D op)

/-- The blocklist grows along every run. -/
lemma blocklist_grows {G : Driver S P → Op → Prop} (hsound : D.Sound)
    (h : (machine c charge certs params t0).StepsIf G D is os D') :
    D.state.ra.blocklist ⊆ D'.state.ra.blocklist := by
  have hkeeps : (scms c).Keeps (fun _ _ _ => True)
      fun s _ => D.state.ra.blocklist ⊆ s.ra.blocklist := by
    rintro e s b s' b' hstep - hsub
    cases hstep with
    | act e =>
      show _ ⊆ (e.apply c s).1.ra.blocklist
      cases e with
      | request device startI periods jmax flow =>
        show _ ⊆ (s.requested c device startI periods).ra.blocklist
        unfold ScmsState.requested modifyDevice
        split <;> exact hsub
      | _ => exact hsub
    | react hr =>
      cases hr with
      | refused => exact hsub
      | handled time cost h => exact hsub.trans (handle_docket h).2.2.1
  exact (steps_keeps_from hkeeps free_true (fun _ _ _ h => h) (fun _ _ _ _ h => h) hsound
    (Finset.Subset.refl _) (h.mono fun D op _ => allowed_true D op)).2

/-- **Requests of a blocklisted device are refused**: they are counted and open no job. -/
lemma blocklisted_refused {x : Queued (ScmsMsg S P)} {result : Except ProtoError Unit}
    {out : Outbox (ScmsMsg S P)} {req : ProvisioningRequest P} (hforeign : Foreign D.state)
    (hstep : (machine c charge certs params t0).step D .deliver = .ok (.delivered x result out, D'))
    (hdst : x.delivery.dst = nodes.ra) (hmsg : x.delivery.msg = .provisioningRequest req)
    (hblock : req.device ∈ D.state.ra.blocklist) :
    D'.state.ra.refused = D.state.ra.refused + 1 ∧ D'.state.ra.jobs = D.state.ra.jobs := by
  obtain ⟨k, r', hnext, hproc, hD'⟩ := deliver_cases hstep
  have hdev : x.delivery.dst ≠ req.device := by
    rw [hdst]
    exact (hforeign.blocked _ hblock).symm
  have hlop : x.delivery.dst ≠ nodes.lop := by
    rw [hdst]
    decide
  suffices hr : r'.state.ra = { D.state.ra with refused := D.state.ra.refused + 1 } by
    have hra : D'.state.ra = r'.state.ra := by
      rcases hD' with rfl | ⟨p, -, rfl⟩ <;> rfl
    rw [hra, hr]
    exact ⟨rfl, rfl⟩
  simp only [process, handle, hmsg, onProvisioningRequest, if_neg hdev, if_neg hlop,
    onProvisioningRequestAtRa, if_pos hblock, Except.ok.injEq, Prod.mk.injEq] at hproc
  rw [← hproc.2]

/-- What a `revoke` that opens a case does. -/
lemma revoke_opens {index iRev jmax : ℕ} {run crlRun : FlowRun}
    (hstep : (machine c charge certs params t0).step D (.revoke index iRev jmax) =
      .ok (.case (some (run, crlRun)), D')) :
    ∃ r, D.state.ma.reports[index]? = some r ∧ caseOpen D.state = false ∧ run = D.state.nextRun + 1 ∧
      D'.state.ma.case = some (caseOf run crlRun r r iRev jmax true) ∧
      D'.state = ((Event.openCase r r iRev jmax true).apply c D.state).1 ∧
      D'.posts = ((Event.openCase r r iRev jmax true).apply c D.state).2 + D.posts := by
  obtain ⟨r, preloading⟩ := D
  simp only [machine] at hstep
  cases preloading with
  | some p => cases hstep
  | none =>
    simp only [call, revoke, newRun, Option.isSome_none, Bool.false_eq_true, if_false,
      Except.ok.injEq, Prod.mk.injEq] at hstep
    obtain ⟨ho, rfl⟩ := hstep
    split at ho
    next => cases ho
    next hopen =>
      cases hrep : r.state.ma.reports[index]? with
      | none =>
        simp [hrep] at ho
      | some report =>
        simp only [hrep, Reply.case.injEq, Option.some.injEq, Prod.mk.injEq] at ho
        obtain ⟨rfl, rfl⟩ := ho
        simp only [if_neg hopen]
        refine ⟨report, rfl, by simpa using hopen, trivial, rfl, rfl, ?_⟩
        rw [Driver.posts_none, Driver.posts_none]
        rfl

/-- The lookup of a case at the certifying authority, somewhere along a run, and its answer. -/
def LookedUp (c : Crypto S P) (charge : String → OpDescriptor → Duration) (certs : CertificateSizes)
    (params : ScmsParams) (t0 : SimTime) (run : FlowRun) (subject : ℕ × LinkageValue)
    (D : Driver S P) (is : List Op) (D' : Driver S P) (answer : Option PcaLookup) : Prop :=
  ∃ js ps D₂ x result out D₃ ls qs, is = js ++ .deliver :: ls ∧
    (machine c charge certs params t0).StepsIf (Allowed (onlyRevokes c)) D js ps D₂ ∧
    (machine c charge certs params t0).step D₂ .deliver = .ok (.delivered x result out, D₃) ∧
    (machine c charge certs params t0).StepsIf (Allowed (onlyRevokes c)) D₃ ls qs D' ∧
    x.delivery.dst = nodes.pca ∧ x.delivery.run = run ∧
    x.delivery.msg = .pcaLookupRequest subject.1 subject.2 ∧
    answer = D₂.state.pca.issued[toLex subject]?

lemma tracked_opened (r : ReportSubmission) (iRev jmax : ℕ) {s : ScmsState S P}
    {b : Multiset (ScmsPost S P)} (hchain : ChainInv c s b)
    (hphase : ∃ base found, Phase c base s found (caseBag b)) (hclosed : caseOpen s = false) :
    Tracked c s.docket (caseOf (s.nextRun + 1) (s.nextRun + 2) r r iRev jmax true) (· = none)
      ((Event.openCase r r iRev jmax true).apply c s).1
      (((Event.openCase r r iRev jmax true).apply c s).2 + b) := by
  obtain ⟨base, found, hphase⟩ := hphase
  refine ⟨keeps_chained c (.act _ s b) trivial hchain, Nat.le_succ _, fun k hk _ => ?_⟩
  cases hk
  refine ⟨rfl, none, rfl, ?_⟩
  rw [caseBag_add, hphase.eq_zero hclosed]
  exact phase_openCase r r iRev jmax true

lemma LookedUp.snoc {run : FlowRun} {subject : ℕ × LinkageValue} {D₁ : Driver S P} {op : Op}
    {o : Reply S P} {answer : Option PcaLookup}
    (h : LookedUp c charge certs params t0 run subject D₁ is D answer)
    (hG : Allowed (onlyRevokes c) D op)
    (hstep : (machine c charge certs params t0).step D op = .ok (o, D')) :
    LookedUp c charge certs params t0 run subject D₁ (is ++ [op]) D' answer := by
  obtain ⟨js, ps, D₂, x, result, out, D₃, ls, qs, rfl, hfirst, hask, hrest, hx⟩ := h
  exact ⟨js, ps, D₂, x, result, out, D₃, ls ++ [op], qs ++ [o], by simp, hfirst, hask,
    hrest.snoc hG hstep, hx⟩

/-- A delivery that is due is handled. -/
lemma exists_delivered {q : Queued (ScmsMsg S P)} {k : Kernel (ScmsMsg S P)} {o : Reply S P}
    (hnext : D.run.kernel.nextDelivery = some (q, k))
    (hstep : (machine c charge certs params t0).step D .deliver = .ok (o, D')) :
    ∃ result out, o = .delivered q result out := by
  obtain ⟨r, preloading⟩ := D
  simp only [machine, deliver, hnext] at hstep
  cases hproc : process c charge r q k with
  | error e => simp [hproc] at hstep
  | ok y =>
    obtain ⟨⟨result, out⟩, r'⟩ := y
    simp only [hproc] at hstep
    split at hstep <;> cases hstep
    · exact ⟨_, _, rfl⟩
    · exact ⟨_, _, rfl⟩

/-- A lookup that is about to be handled by the certifying authority is that of the case in the
slot. -/
lemma Phase.next_lookup {base : Docket} {found : Option (Option PcaLookup)}
    {q : Queued (ScmsMsg S P)} {k : Kernel (ScmsMsg S P)} {i : ℕ} {lv : LinkageValue}
    (hphase : Phase c base D.state found (caseBag D.posts))
    (hnext : D.run.kernel.nextDelivery = some (q, k))
    (hmsg : q.delivery.msg = .pcaLookupRequest i lv) :
    ∃ k, D.state.ma.case = some k ∧ q.delivery.run = k.run ∧
      (k.direct = true → (i, lv) = k.subject1) := by
  have hmem : q.delivery.post ∈ caseBag D.posts := by
    refine Multiset.mem_filter.2 ⟨?_, by rw [show q.delivery.post.msg = _ from hmsg]; rfl⟩
    rw [Driver.posts, Kernel.nextDelivery_posts hnext, Multiset.cons_add]
    exact Multiset.mem_cons_self _ _
  obtain ⟨R, hR⟩ := Multiset.exists_cons_of_mem hmem
  rw [hR] at hphase
  obtain ⟨k, hk, -, -, -, -, hrun, -, hfirst⟩ := hphase.lookup hmsg
  exact ⟨k, hk.case, hrun, fun hdirect => (hfirst hdirect).2⟩

/-- **A case is looked up before it is done.**

**Proof sketch.** Induction on the run. Until a lookup of the case is handled by the certifying
authority the case has no answer; the lookups of other cases come after it has left its slot. -/
lemma unasked_or_lookedUp {base : Docket} {k₀ : Case} (hdirect : k₀.direct = true)
    (hsound : D.Sound) (hD : Tracked c base k₀ (· = none) D.state D.posts)
    (h : (machine c charge certs params t0).StepsIf (Allowed (onlyRevokes c)) D is os D') :
    D'.Sound ∧ (Tracked c base k₀ (· = none) D'.state D'.posts ∨
      Tracked c base k₀ (fun _ => False) D'.state D'.posts ∨
      ∃ answer, LookedUp c charge certs params t0 k₀.run k₀.subject1 D is D' answer) := by
  refine h.induction (Q := fun is _ D' => D'.Sound ∧
    (Tracked c base k₀ (· = none) D'.state D'.posts ∨
      Tracked c base k₀ (fun _ => False) D'.state D'.posts ∨
      ∃ answer, LookedUp c charge certs params t0 k₀.run k₀.subject1 D is D' answer))
    ⟨hsound, .inl hD⟩ ?_
  rintro is os D₂ op o D₃ hrun ⟨hsound₂, hcases⟩ hG hstep
  refine ⟨step_sound hsound₂ hstep, ?_⟩
  have hone := (Machine.StepsIf.nil (m := machine c charge certs params t0) D₂).snoc hG.solo hstep
  have hgone : Tracked c base k₀ (fun _ => False) D₂.state D₂.posts →
      Tracked c base k₀ (fun _ => False) D₃.state D₃.posts := fun hD₂ =>
    (steps_tracked (fun _ _ _ h => h) hsound₂ hD₂ hone).2
  rcases hcases with hnone | hfalse | ⟨answer, hlook⟩
  · by_cases hask : NextAsksPca D₂ op
    swap
    · exact .inl (step_unasked hsound₂ hnone hdirect hG.solo hask hstep)
    obtain ⟨rfl, q, k, hnext, hdst, i, lv, hmsg⟩ := hask
    by_cases hcase : ∃ k, D₂.state.ma.case = some k ∧ k.run = k₀.run
    · obtain ⟨k₂, hk₂, hrun₂⟩ := hcase
      obtain ⟨hterms, found, -, hphase⟩ := hnone.phase k₂ hk₂ hrun₂
      obtain ⟨k', hk', hqrun, hsubject⟩ := hphase.next_lookup hnext hmsg
      obtain rfl := Option.some.inj (hk₂.symm.trans hk')
      have hdirect₂ : k₂.direct = true :=
        (congrArg (fun x => x.2.2.2.2.2.2) hterms).trans hdirect
      have hsubj : k₂.subject1 = k₀.subject1 := congrArg (fun x => x.2.2.1) hterms
      obtain ⟨result, out, rfl⟩ := exists_delivered hnext hstep
      refine .inr (.inr ⟨_, is, os, D₂, q, result, out, D₃, [], [], rfl, hrun, hstep, .nil _, hdst,
        hqrun.trans hrun₂, ?_, rfl⟩)
      rw [← hsubj, ← hsubject hdirect₂]
      exact hmsg
    · refine .inr (.inl (hgone ⟨hnone.chain, hnone.numbered, fun k hk hrun => ?_⟩))
      exact absurd ⟨k, hk, hrun⟩ hcase
  · exact .inr (.inl (hgone hfalse))
  · exact .inr (.inr ⟨answer, hlook.snoc hG hstep⟩)

/-- A lookup that is handled by the certifying authority answers the case. -/
lemma tracked_lookup {base : Docket} {k₀ : Case} {x : Queued (ScmsMsg S P)}
    {result : Except ProtoError Unit} {out : Outbox (ScmsMsg S P)} {subject : ℕ × LinkageValue}
    (hdirect : k₀.direct = true) (hsound : D.Sound)
    (hphase : ∃ base found, Phase c base D.state found (caseBag D.posts))
    (hD : Tracked c base k₀ (fun _ => True) D.state D.posts)
    (hstep : (machine c charge certs params t0).step D .deliver = .ok (.delivered x result out, D'))
    (hdst : x.delivery.dst = nodes.pca) (hrun : x.delivery.run = k₀.run)
    (hmsg : x.delivery.msg = .pcaLookupRequest subject.1 subject.2) :
    Tracked c base k₀ (· = some D.state.pca.issued[toLex subject]?) D'.state D'.posts := by
  obtain ⟨base', found', hphase'⟩ := hphase
  obtain ⟨kernel, r', hnext, -, -⟩ := deliver_cases hstep
  obtain ⟨k, hk, hxrun, -⟩ := hphase'.next_lookup hnext hmsg
  obtain ⟨hterms, found, -, hphase⟩ := hD.phase k hk (hxrun.symm.trans hrun)
  have hdirect' : k.direct = true := (congrArg (fun x => x.2.2.2.2.2.2) hterms).trans hdirect
  have hpost : x.delivery.post.msg = .pcaLookupRequest subject.1 subject.2 := hmsg
  have hreact := deliver_reacts hsound (by
    rw [hmsg]
    rintro (h | h) <;> cases h) hstep
  have hG : distinctHashes c (.inr x.delivery.post) D.state D.posts := by
    simp only [distinctHashes, hpost]
  obtain ⟨hcase, hnum⟩ := step_terms hreact fun _ _ _ _ _ h => by cases h
  refine ⟨keeps_chained c hreact hG hD.chain, hD.numbered.trans hnum, fun k' hk' _ => ?_⟩
  rw [hk', hk, Option.map_some, Option.map_some, Option.some.injEq] at hcase
  exact ⟨hcase.trans hterms, _, rfl, phase_lookup hreact hD.chain hphase hpost hdst hk hdirect'⟩

/-- **The answer decides.** A case that has been looked up ends with what the certifying authority
answered. -/
lemma verdict_of_lookedUp {base : Docket} {k₀ k : Case} {answer : Option PcaLookup} {is' : List Op}
    (hdirect : k₀.direct = true)
    (hinit : (machine c charge certs params t0).StepsIf (Allowed (onlyRevokes c))
      (machine c charge certs params t0).init is os D)
    (hD : Tracked c base k₀ (· = none) D.state D.posts)
    (h : LookedUp c charge certs params t0 k₀.run k₀.subject1 D is' D' answer)
    (hk : D'.state.ma.case = some k) (hrun : k.run = k₀.run) (hdone : k.done = true) :
    k.terms = k₀.terms ∧ Verdict c base D'.state k answer := by
  obtain ⟨js, ps, D₂, x, result, out, D₃, ls, qs, -, hfirst, hask, hrest, hdst, hxrun,
    hmsg, rfl⟩ := h
  have hD₁ : Tracked c base k₀ (fun _ => True) D.state D.posts := by
    refine ⟨hD.chain, hD.numbered, fun k hk hrun => ?_⟩
    obtain ⟨hterms, found, -, hphase⟩ := hD.phase k hk hrun
    exact ⟨hterms, found, trivial, hphase⟩
  have hsolo : ∀ (D : Driver S P) (op : Op), Allowed (onlyRevokes c) D op →
      Allowed (soloCases c) D op := fun _ _ h => h.solo
  obtain ⟨hsound, -⟩ := steps_cases (hinit.mono hsolo)
  obtain ⟨hsound₂, hcases₂⟩ := steps_cases ((hinit.append hfirst).mono hsolo)
  have hD₂ := (steps_tracked (fun _ _ _ h => h) hsound hD₁ (hfirst.mono hsolo)).2
  have hD₃ := tracked_lookup hdirect hsound₂ hcases₂.phase hD₂ hask hdst hxrun hmsg
  have hD' := (steps_tracked (fun a b hext h => hext _ h) (step_sound hsound₂ hask) hD₃
    (hrest.mono hsolo)).2
  obtain ⟨hterms, found, hfound, hphase⟩ := hD'.phase k hk hrun
  have hdirect' : k.direct = true := (congrArg (fun x => x.2.2.2.2.2.2) hterms).trans hdirect
  obtain ⟨x, hx, hverdict⟩ := hphase.verdict hk hdone hdirect'
  cases hfound.symm.trans hx
  exact ⟨hterms, hverdict⟩

/-- With nothing scheduled no case is open. -/
lemma idle_closed (hsound : D.Sound)
    (hphase : ∃ base found, Phase c base D.state found (caseBag D.posts))
    (hidle : D.real.heap = []) :
    caseOpen D.state = false := by
  obtain ⟨base, found, hphase⟩ := hphase
  refine hphase.done ?_
  obtain ⟨r, preloading⟩ := D
  cases preloading with
  | none =>
    have hzero : r.kernel.posts = 0 := by
      rw [Kernel.posts, show r.kernel.heap = [] from hidle]
      rfl
    rw [Driver.posts_none, hzero]
    rfl
  | some p =>
    have hzero : p.real.posts = 0 := by
      rw [Kernel.posts, show p.real.heap = [] from hidle]
      rfl
    rw [Driver.posts, caseBag_preload (hsound.scratch p rfl), Option.elim_some, hzero]
    rfl

/-- **Revocations run to a verdict**, in every run in which cases are opened with `revoke` only.

* The messages of cases in flight are those of the one case that is open, and no other one can be
  opened meanwhile.
* When nothing is scheduled, no case is open.
* Requests of blocklisted devices that reach the Registration Authority are counted and open no job.
* A case that is done has been looked up at the certifying authority. If its certificate was unknown
  then, it has led to nothing. If it was issued, the device of the request it was issued for is
  blocklisted, the request is among the decisions, and there is one entry more, with the seeds of
  the two chains recorded for the request.

**Proof sketch.** The phase of the case says which messages are in flight for it, and there is none
only when the case is done. Along the run from the call that opened it, the phase also keeps the
docket it started with and the answer of the certifying authority. -/
theorem revoke_runs_to_verdict
    (h : (machine c charge certs params t0).StepsIf (Allowed (onlyRevokes c))
      (machine c charge certs params t0).init is os D) :
    ((∀ p ∈ D.posts, p.msg.family = .resolution → ∃ k, D.state.ma.case = some k ∧
        k.done = false ∧ (p.run = k.run ∨ p.run = k.crlRun)) ∧
      (caseOpen D.state = true → ∀ index iRev jmax o D',
        (machine c charge certs params t0).step D (.revoke index iRev jmax) = .ok (o, D') →
          o = .case none ∧ D' = D)) ∧
    (D.real.heap = [] → caseOpen D.state = false) ∧
    (∀ device ∈ D.state.ra.blocklist, ∀ js ps D₁ x result out D₂ req,
      (machine c charge certs params t0).StepsIf (Allowed (onlyRevokes c)) D js ps D₁ →
      (machine c charge certs params t0).step D₁ .deliver = .ok (.delivered x result out, D₂) →
      x.delivery.dst = nodes.ra → x.delivery.msg = .provisioningRequest req → req.device = device →
      D₂.state.ra.refused = D₁.state.ra.refused + 1 ∧ D₂.state.ra.jobs = D₁.state.ra.jobs) ∧
    ∀ index iRev jmax run crlRun D₁,
      (machine c charge certs params t0).step D (.revoke index iRev jmax) =
        .ok (.case (some (run, crlRun)), D₁) →
      ∃ r, D.state.ma.reports[index]? = some r ∧ ∀ js ps D' k,
        (machine c charge certs params t0).StepsIf (Allowed (onlyRevokes c)) D₁ js ps D' →
        D'.state.ma.case = some k → k.run = run → k.done = true →
        k.iRev = iRev ∧ k.jmax = jmax ∧
        (∃ answer, LookedUp c charge certs params t0 run (r.subjectI, r.subjectLv) D₁ js D' answer) ∧
        ∀ answer, LookedUp c charge certs params t0 run (r.subjectI, r.subjectLv) D₁ js D' answer →
          Verdict c D.state.docket D'.state k answer := by
  obtain ⟨hsound, hcases⟩ := steps_cases (h.mono fun _ _ h => h.solo)
  refine ⟨⟨fun p hp hf => ?_, fun hopen index iRev jmax o D' hstep => ?_⟩,
    idle_closed hsound hcases.phase, ?_, ?_⟩
  · obtain ⟨base, found, hphase⟩ := hcases.phase
    exact hphase.runs (Multiset.mem_filter.2 ⟨hp, hf⟩)
  · obtain ⟨r, preloading⟩ := D
    simp only [machine] at hstep
    cases preloading with
    | some p => cases hstep
    | none =>
      simp only [call, revoke, show caseOpen r.state = true from hopen, if_true] at hstep
      cases hstep
      exact ⟨rfl, rfl⟩
  · rintro device hmem js ps D₁ x result out D₂ req hrun hstep hdst hmsg rfl
    obtain ⟨-, hforeign, -⟩ := steps_foreign (h.append hrun)
    exact blocklisted_refused hforeign hstep hdst hmsg (blocklist_grows hsound hrun hmem)
  · intro index iRev jmax run crlRun D₁ hstep
    obtain ⟨r, hr, hclosed, rfl, hcase, hstate, hposts⟩ := revoke_opens hstep
    have htracked := tracked_opened r iRev jmax hcases.chain hcases.phase hclosed
    rw [← hstate, ← hposts] at htracked
    have hG : Allowed (onlyRevokes c) D (.revoke index iRev jmax) := fun _ _ _ => rfl
    refine ⟨r, hr, fun js ps D' k hrun hk hkrun hdone => ?_⟩
    have hinit := h.snoc hG hstep
    have hverdict : ∀ answer, LookedUp c charge certs params t0 (D.state.nextRun + 1)
        (r.subjectI, r.subjectLv) D₁ js D' answer → k.terms =
          (caseOf (D.state.nextRun + 1) (D.state.nextRun + 2) r r iRev jmax true).terms ∧
          Verdict c D.state.docket D'.state k answer := fun answer hlook =>
      verdict_of_lookedUp rfl hinit htracked hlook hk hkrun hdone
    have hexists : ∃ answer, LookedUp c charge certs params t0 (D.state.nextRun + 1)
        (r.subjectI, r.subjectLv) D₁ js D' answer := by
      obtain ⟨-, hnone | hfalse | hlook⟩ :=
        unasked_or_lookedUp rfl (step_sound hsound hstep) htracked hrun
      · obtain ⟨hterms, found, rfl, hphase⟩ := hnone.phase k hk hkrun
        have hdirect : k.direct = true := congrArg (fun x => x.2.2.2.2.2.2) hterms
        obtain ⟨x, hx, -⟩ := hphase.verdict hk hdone hdirect
        cases hx
      · obtain ⟨-, found, hfound, -⟩ := hfalse.phase k hk hkrun
        exact hfound.elim
      · exact hlook
    obtain ⟨answer, hlook⟩ := hexists
    have hterms := (hverdict answer hlook).1
    exact ⟨congrArg (fun x => x.2.2.2.2.1) hterms, congrArg (fun x => x.2.2.2.2.2.1) hterms,
      ⟨answer, hlook⟩, fun answer hlook => (hverdict answer hlook).2⟩

end Runs

/-- A check that implies `onlyRevokes`. -/
def revokesCheck (c : Crypto S P) (D : Driver S P) : Op → Bool
  | .investigate _ _ _ _ => false
  | op => soloCheck c D op

lemma allowed_of_revokesCheck {D : Driver S P} {op : Op} (h : revokesCheck c D op = true) :
    Allowed (onlyRevokes c) D op := by
  cases op with
  | investigate a b iRev jmax => cases h
  | revoke index iRev jmax => exact fun r _ _ => rfl
  | deliver =>
    have hsolo : soloCheck c D .deliver = true := h
    exact allowed_of_soloCheck hsolo
  | _ => simp [Allowed, onlyRevokes, distinctHashes]

/-- A device is revoked, and when nothing is scheduled the case is done and has led to an entry. -/
theorem revoke_runs_to_verdict_revoked : ∃ is os D,
    hand.StepsIf (Allowed (onlyRevokes handCrypto)) hand.init is os D ∧ D.real.heap = [] ∧
      caseOpen D.state = false ∧ D.state.crlg.entries ≠ [] := by
  have hrun : (hand.runIf (revokesCheck handCrypto) hand.init (revokeOps ++ deliveries 12)).any
      (fun x => x.2.real.heap.isEmpty && !x.2.state.crlg.entries.isEmpty) = true := by
    decide +kernel
  obtain ⟨os, D, h, hend⟩ := Machine.exists_stepsIf (fun _ _ => allowed_of_revokesCheck) hrun
  simp only [Bool.and_eq_true, Bool.not_eq_true', List.isEmpty_iff] at hend
  refine ⟨_, os, D, h, hend.1, (revoke_runs_to_verdict h).2.1 hend.1, fun hnil => ?_⟩
  rw [hnil] at hend
  exact absurd hend.2 (by decide)

end V2xw.Scms
