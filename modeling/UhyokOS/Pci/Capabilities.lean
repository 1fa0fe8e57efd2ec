import UhyokOS.Lib.FueledLoop
import UhyokOS.Lib.LinkedList
import UhyokOS.Pci.Msi

/-!
# The list of capabilities

The model of `ConfigureMSI`, which follows the list of capabilities of a device to its end. The links are
what the device says they are, and the loop counts nothing, so it has fuel.

* `search_path`: what the loop has found when it is through.
* `configureMSI_terminates_iff`: the loop ends iff no capability on the list is reached again, and
  then it has found the right capability.
-/

namespace UhyokOS.Pci

open BitFields FueledLoop LinkedList Relation

/-- Source: `kernel/pci.hpp`, `CapabilityHeader`, `cap_id` -/
def capId (header : UInt32) : UInt8 := ⟨field header.toBitVec 0 8⟩

/-- Source: `kernel/pci.hpp`, `CapabilityHeader`, `next_ptr` -/
def nextPtr (header : UInt32) : UInt8 := ⟨field header.toBitVec 8 8⟩

/-- Source: `kernel/pci.hpp`, `kCapabilityMSI` -/
abbrev kCapabilityMSI : UInt8 := 0x05

/-- Source: `kernel/pci.hpp`, `kCapabilityMSIX` -/
abbrev kCapabilityMSIX : UInt8 := 0x11

/-- The variables of the loop in `ConfigureMSI`. -/
structure CapabilitySearch where
  capAddr : UInt8
  msiCapAddr : UInt8 := 0
  msixCapAddr : UInt8 := 0

/-- The loop is cut off. -/
inductive CutOff
  | outOfFuel

section configure

variable (space : ConfigSpace) (dev : Device)

/-- Source: `kernel/pci.cpp`, `ReadCapabilityHeader` -/
def readCapabilityHeader (addr : UInt8) : UInt32 := readConfReg space dev addr

/-- The loop of `ConfigureMSI`. -/
def searchBody (s : CapabilitySearch) : Except CutOff (CapabilitySearch ⊕ CapabilitySearch) :=
  if s.capAddr ≠ 0 then
    let header := readCapabilityHeader space dev s.capAddr
    let s :=
      if capId header = kCapabilityMSI then { s with msiCapAddr := s.capAddr }
      else if capId header = kCapabilityMSIX then { s with msixCapAddr := s.capAddr }
      else s
    .ok (.inl { s with capAddr := nextPtr header })
  else .ok (.inr s)

/-- Where the list starts. -/
def firstCapability : UInt8 := (readConfReg space dev 0x34 &&& 0xff).toUInt8

variable (msgAddr msgData numVectorExponent : UInt32)

/-- Source: `kernel/pci.cpp`, `ConfigureMSI` -/
def configureMSI (fuel : Nat) : Except CutOff (Error × ConfigSpace) := do
  let s ← loop .outOfFuel (searchBody space dev) fuel { capAddr := firstCapability space dev }
  return if s.msiCapAddr ≠ 0 then
      configureMSIRegister space dev s.msiCapAddr msgAddr msgData numVectorExponent
    else if s.msixCapAddr ≠ 0 then
      configureMSIXRegister space dev s.msixCapAddr msgAddr msgData numVectorExponent
    else (.kNoPCIMSI, space)

end configure

/-! ## The list -/

section list

variable (space : ConfigSpace) (dev : Device)

/-- The address behind a capability. The address `0` ends the list. -/
def Link (c c' : UInt8) : Prop := c ≠ 0 ∧ c' = nextPtr (readCapabilityHeader space dev c)

/-- There is a capability of a kind at an address. -/
def IsCapability (id c : UInt8) : Prop := c ≠ 0 ∧ capId (readCapabilityHeader space dev c) = id

/-- The capability of a kind on the list from an address on, the last one if there are more. -/
structure Found (id start c : UInt8) : Prop where
  path : ReflTransGen (Link space dev) start c
  here : IsCapability space dev id c
  last : ∀ c', TransGen (Link space dev) c c' → ¬IsCapability space dev id c'

/-- There is one on the list from an address on. -/
def OnList (id start : UInt8) : Prop :=
  ∃ c, ReflTransGen (Link space dev) start c ∧ IsCapability space dev id c

variable {space dev} {id c c' : UInt8}

theorem link_unique : Relator.RightUnique (Link space dev) :=
  fun _ _ _ h h' => h.2.trans h'.2.symm

theorem not_link_iff : (∀ c', ¬Link space dev c c') ↔ c = 0 := by
  constructor
  · intro h
    by_contra hne
    exact h _ ⟨hne, rfl⟩
  · rintro rfl c' ⟨hne, -⟩
    exact hne rfl

theorem endsAt_iff {start : UInt8} :
    EndsAt (Link space dev) start c ↔ ReflTransGen (Link space dev) start c ∧ c = 0 :=
  ⟨fun h => ⟨h.path, not_link_iff.mp h.last⟩, fun h => ⟨h.1, not_link_iff.mpr h.2⟩⟩

theorem Found.onList {start : UInt8} (h : Found space dev id start c) : OnList space dev id start :=
  ⟨c, h.path, h.here⟩

theorem not_onList_zero (space : ConfigSpace) (dev : Device) (id : UInt8) :
    ¬OnList space dev id 0 := by
  rintro ⟨c, hpath, hc⟩
  rcases ReflTransGen.cases_head hpath with rfl | ⟨c', ⟨hne, -⟩, -⟩
  · exact hc.1 rfl
  · exact hne rfl

end list

/-! ## The search -/

section search

variable {space : ConfigSpace} {dev : Device} {id c c' old old' new : UInt8}
  {s s' t : CapabilitySearch}

/-- What a variable of the loop holds at the end: the capability that was found, or what it held
before. -/
def Records (space : ConfigSpace) (dev : Device) (id start old new : UInt8) : Prop :=
  (new = old ∧ ¬OnList space dev id start) ∨ Found space dev id start new

/-- **The step lemma**: one capability, and then the rest of the list. -/
theorem records_step (hlink : Link space dev c c')
    (hvisit : (IsCapability space dev id c ∧ old' = c) ∨
      (¬IsCapability space dev id c ∧ old' = old))
    (h : Records space dev id c' old' new) : Records space dev id c old new := by
  have hrest : ∀ d, TransGen (Link space dev) c d → ReflTransGen (Link space dev) c' d := by
    intro d hd
    obtain ⟨c'', hfirst, hpath⟩ := TransGen.head'_iff.mp hd
    rwa [link_unique hlink hfirst]
  rcases h with ⟨hnew, hnone⟩ | hfound
  · rcases hvisit with ⟨hhere, hold⟩ | ⟨hnot, hold⟩
    · refine Or.inr ?_
      rw [hnew, hold]
      exact ⟨.refl, hhere, fun d hd hcap => hnone ⟨d, hrest d hd, hcap⟩⟩
    · refine Or.inl ⟨hnew.trans hold, ?_⟩
      rintro ⟨d, hd, hcap⟩
      rcases ReflTransGen.cases_head hd with rfl | ⟨e, hfirst, hpath⟩
      · exact hnot hcap
      · exact hnone ⟨d, hrest d (TransGen.head' hfirst hpath), hcap⟩
  · exact Or.inr ⟨hfound.path.head hlink, hfound.here, hfound.last⟩

/-- An iteration visits one capability. -/
theorem searchBody_of_ne (space : ConfigSpace) (dev : Device) (hne : s.capAddr ≠ 0) :
    ∃ s', searchBody space dev s = .ok (.inl s') ∧ Link space dev s.capAddr s'.capAddr ∧
    ((IsCapability space dev kCapabilityMSI s.capAddr ∧ s'.msiCapAddr = s.capAddr) ∨
      (¬IsCapability space dev kCapabilityMSI s.capAddr ∧ s'.msiCapAddr = s.msiCapAddr)) ∧
    ((IsCapability space dev kCapabilityMSIX s.capAddr ∧ s'.msixCapAddr = s.capAddr) ∨
      (¬IsCapability space dev kCapabilityMSIX s.capAddr ∧ s'.msixCapAddr = s.msixCapAddr)) := by
  unfold searchBody
  simp only [if_pos hne]
  refine ⟨_, rfl, ⟨hne, rfl⟩, ?_, ?_⟩
  · by_cases hmsi : capId (readCapabilityHeader space dev s.capAddr) = kCapabilityMSI
    · rw [if_pos hmsi]
      exact Or.inl ⟨⟨hne, hmsi⟩, rfl⟩
    · rw [if_neg hmsi]
      refine Or.inr ⟨fun h => hmsi h.2, ?_⟩
      split_ifs <;> rfl
  · by_cases hmsix : capId (readCapabilityHeader space dev s.capAddr) = kCapabilityMSIX
    · have hmsi : capId (readCapabilityHeader space dev s.capAddr) ≠ kCapabilityMSI := by
        rw [hmsix]
        decide
      rw [if_neg hmsi, if_pos hmsix]
      exact Or.inl ⟨⟨hne, hmsix⟩, rfl⟩
    · refine Or.inr ⟨fun h => hmsix h.2, ?_⟩
      rw [if_neg hmsix]
      split_ifs <;> rfl

theorem searchBody_of_eq (hzero : s.capAddr = 0) : searchBody space dev s = .ok (.inr s) := by
  unfold searchBody
  rw [if_neg (not_not.mpr hzero)]

theorem searchBody_inr_iff : searchBody space dev s = .ok (.inr t) ↔ s.capAddr = 0 ∧ t = s := by
  by_cases hne : s.capAddr ≠ 0
  · obtain ⟨s', hbody, -⟩ := searchBody_of_ne space dev hne
    rw [hbody]
    exact iff_of_false (fun h => nomatch h) fun h => hne h.1
  · have hzero := not_not.mp hne
    rw [searchBody_of_eq hzero]
    exact ⟨fun h => by cases h; exact ⟨hzero, rfl⟩, fun h => by rw [h.2]⟩

theorem searchBody_inl (h : searchBody space dev s = .ok (.inl s')) :
    Link space dev s.capAddr s'.capAddr ∧
    ((IsCapability space dev kCapabilityMSI s.capAddr ∧ s'.msiCapAddr = s.capAddr) ∨
      (¬IsCapability space dev kCapabilityMSI s.capAddr ∧ s'.msiCapAddr = s.msiCapAddr)) ∧
    ((IsCapability space dev kCapabilityMSIX s.capAddr ∧ s'.msixCapAddr = s.capAddr) ∨
      (¬IsCapability space dev kCapabilityMSIX s.capAddr ∧ s'.msixCapAddr = s.msixCapAddr)) := by
  by_cases hne : s.capAddr ≠ 0
  · obtain ⟨s'', hbody, hvisit⟩ := searchBody_of_ne space dev hne
    rw [hbody] at h
    cases h
    exact hvisit
  · rw [searchBody_of_eq (not_not.mp hne)] at h
    cases h

/-- **The run lemma.** At the end of the list each variable holds what there was on it. -/
theorem search_path
    (hpath : ReflTransGen (fun s s' => searchBody space dev s = .ok (.inl s')) s t)
    (hend : t.capAddr = 0) :
    ReflTransGen (Link space dev) s.capAddr 0 ∧
      Records space dev kCapabilityMSI s.capAddr s.msiCapAddr t.msiCapAddr ∧
      Records space dev kCapabilityMSIX s.capAddr s.msixCapAddr t.msixCapAddr := by
  induction hpath using ReflTransGen.head_induction_on with
  | refl =>
      rw [hend]
      exact ⟨.refl, Or.inl ⟨rfl, not_onList_zero space dev _⟩,
        Or.inl ⟨rfl, not_onList_zero space dev _⟩⟩
  | head hbody _ ih =>
      obtain ⟨hlink, hmsi, hmsix⟩ := searchBody_inl hbody
      obtain ⟨hrest, hmsi', hmsix'⟩ := ih
      exact ⟨hrest.head hlink, records_step hlink hmsi hmsi', records_step hlink hmsix hmsix'⟩

/-- The loop follows the links. -/
theorem exists_search_path (hpath : ReflTransGen (Link space dev) s.capAddr c) :
    ∃ t, ReflTransGen (fun s s' => searchBody space dev s = .ok (.inl s')) s t ∧ t.capAddr = c := by
  induction hpath with
  | refl => exact ⟨s, .refl, rfl⟩
  | tail _ hlink ih =>
      obtain ⟨t, hpath, rfl⟩ := ih
      obtain ⟨t', hbody, hlink', -⟩ := searchBody_of_ne space dev hlink.1
      exact ⟨t', hpath.tail hbody, link_unique hlink' hlink⟩

end search

/-! ## The whole function -/

section configure

variable (space : ConfigSpace) (dev : Device) (msgAddr msgData numVectorExponent : UInt32)

/-- What `ConfigureMSI` does with the list: it configures the MSI capability if there is one on it, else
the MSI-X capability if there is one. -/
structure Selects : Prop where
  msi : OnList space dev kCapabilityMSI (firstCapability space dev) →
    ∃ c, Found space dev kCapabilityMSI (firstCapability space dev) c ∧
      Returns (configureMSI space dev msgAddr msgData numVectorExponent)
        (configureMSIRegister space dev c msgAddr msgData numVectorExponent)
  msix : ¬OnList space dev kCapabilityMSI (firstCapability space dev) →
    OnList space dev kCapabilityMSIX (firstCapability space dev) →
    ∃ c, Found space dev kCapabilityMSIX (firstCapability space dev) c ∧
      Returns (configureMSI space dev msgAddr msgData numVectorExponent)
        (configureMSIXRegister space dev c msgAddr msgData numVectorExponent)
  neither : ¬OnList space dev kCapabilityMSI (firstCapability space dev) →
    ¬OnList space dev kCapabilityMSIX (firstCapability space dev) →
    Returns (configureMSI space dev msgAddr msgData numVectorExponent) (.kNoPCIMSI, space)

/-- What the loop returns. -/
theorem configureMSI_returns_iff (r : Error × ConfigSpace) :
    Returns (configureMSI space dev msgAddr msgData numVectorExponent) r ↔
      ∃ t, ReflTransGen (fun s s' => searchBody space dev s = .ok (.inl s'))
          { capAddr := firstCapability space dev } t ∧ t.capAddr = 0 ∧
        r = if t.msiCapAddr ≠ 0 then
            configureMSIRegister space dev t.msiCapAddr msgAddr msgData numVectorExponent
          else if t.msixCapAddr ≠ 0 then
            configureMSIXRegister space dev t.msixCapAddr msgAddr msgData numVectorExponent
          else (.kNoPCIMSI, space) := by
  let finish : CapabilitySearch → Error × ConfigSpace := fun t =>
    if t.msiCapAddr ≠ 0 then
      configureMSIRegister space dev t.msiCapAddr msgAddr msgData numVectorExponent
    else if t.msixCapAddr ≠ 0 then
      configureMSIXRegister space dev t.msixCapAddr msgAddr msgData numVectorExponent
    else (.kNoPCIMSI, space)
  have hsequence : configureMSI space dev msgAddr msgData numVectorExponent = fun fuel =>
      loop .outOfFuel (searchBody space dev) fuel { capAddr := firstCapability space dev } >>=
        fun t => .ok (finish t) := rfl
  rw [hsequence, returns_bind_iff (Grows.loop (fun s => grows_const (searchBody space dev s)) _)
    fun t => grows_const _]
  simp only [returns_loop_const_iff, returns_const_iff, searchBody_inr_iff]
  constructor
  · rintro ⟨t, ⟨t', hpath, hend, rfl⟩, hr⟩
    cases hr
    exact ⟨t, hpath, hend, rfl⟩
  · rintro ⟨t, hpath, hend, rfl⟩
    exact ⟨t, ⟨t, hpath, hend, rfl⟩, rfl⟩

/-- The loop ends if the list does. -/
theorem configureMSI_returns_iff_endsAt :
    (∃ r, Returns (configureMSI space dev msgAddr msgData numVectorExponent) r) ↔
      ∃ c, EndsAt (Link space dev) (firstCapability space dev) c := by
  constructor
  · rintro ⟨r, hr⟩
    obtain ⟨t, hpath, hend, -⟩ :=
      (configureMSI_returns_iff space dev msgAddr msgData numVectorExponent r).mp hr
    exact ⟨0, endsAt_iff.mpr ⟨(search_path hpath hend).1, rfl⟩⟩
  · rintro ⟨c, hends⟩
    obtain ⟨hlinks, hzero⟩ := endsAt_iff.mp hends
    have hlinks' : ReflTransGen (Link space dev)
      ({ capAddr := firstCapability space dev } : CapabilitySearch).capAddr c := hlinks
    obtain ⟨t, hpath, hend⟩ := exists_search_path hlinks'
    exact ⟨_, (configureMSI_returns_iff space dev msgAddr msgData numVectorExponent _).mpr
      ⟨t, hpath, hend.trans hzero, rfl⟩⟩

/-- The variables at the end select the capability. -/
theorem selects_of_returns
    (h : ∃ r, Returns (configureMSI space dev msgAddr msgData numVectorExponent) r) :
    Selects space dev msgAddr msgData numVectorExponent := by
  obtain ⟨r, hr⟩ := h
  obtain ⟨t, hpath, hend, hr'⟩ :=
    (configureMSI_returns_iff space dev msgAddr msgData numVectorExponent r).mp hr
  obtain ⟨-, hmsi, hmsix⟩ := search_path hpath hend
  rw [hr'] at hr
  -- a variable is set iff there is such a capability
  have hset : ∀ {id new : UInt8}, Records space dev id (firstCapability space dev) 0 new →
      (OnList space dev id (firstCapability space dev) →
        new ≠ 0 ∧ Found space dev id (firstCapability space dev) new) ∧
      (¬OnList space dev id (firstCapability space dev) → new = 0) := by
    rintro id new (⟨hnew, hnone⟩ | hfound)
    · exact ⟨fun hon => absurd hon hnone, fun _ => hnew⟩
    · exact ⟨fun _ => ⟨hfound.here.1, hfound⟩, fun hnone => absurd hfound.onList hnone⟩
  refine ⟨fun hon => ?_, fun hnone hon => ?_, fun hnone hnone' => ?_⟩
  · obtain ⟨hne, hfound⟩ := (hset hmsi).1 hon
    rw [if_pos hne] at hr
    exact ⟨_, hfound, hr⟩
  · obtain ⟨hne, hfound⟩ := (hset hmsix).1 hon
    rw [if_neg (not_not.mpr ((hset hmsi).2 hnone)), if_pos hne] at hr
    exact ⟨_, hfound, hr⟩
  · rw [if_neg (not_not.mpr ((hset hmsi).2 hnone)),
      if_neg (not_not.mpr ((hset hmsix).2 hnone'))] at hr
    exact hr

/-- **The loop over the capabilities ends iff the list is acyclic**: no capability on it is reached
again. Then it configures the MSI capability if one is on the list, else the MSI-X capability if one is,
and else fails with `kNoPCIMSI`. -/
theorem configureMSI_terminates_iff :
    ((∃ r, Returns (configureMSI space dev msgAddr msgData numVectorExponent) r) ∧
        (Acyclic (Link space dev) (firstCapability space dev) →
          Selects space dev msgAddr msgData numVectorExponent)) ↔
      Acyclic (Link space dev) (firstCapability space dev) := by
  have hfinite : Finite UInt8 :=
    Finite.of_injective (fun c => (⟨c.toNat, c.toNat_lt⟩ : Fin (2 ^ 8))) fun _ _ h =>
      UInt8.toNat_inj.mp (Fin.mk.inj h)
  have hiff := (configureMSI_returns_iff_endsAt space dev msgAddr msgData numVectorExponent).trans
    (ends_iff_acyclic link_unique (firstCapability space dev))
  constructor
  · intro h
    exact hiff.mp h.1
  · intro hacyclic
    have hreturns := hiff.mpr hacyclic
    exact ⟨hreturns, fun _ =>
      selects_of_returns space dev msgAddr msgData numVectorExponent hreturns⟩

end configure

/-- A device that reads as all ones is a list of one capability that links to itself. -/
theorem configureMSI_not_terminates :
    ¬∀ (space : ConfigSpace) (dev : Device) (msgAddr msgData numVectorExponent : UInt32),
      (∃ r, Returns (configureMSI space dev msgAddr msgData numVectorExponent) r) ∧
        (Acyclic (Link space dev) (firstCapability space dev) →
          Selects space dev msgAddr msgData numVectorExponent) := by
  intro hall
  obtain ⟨hreturns, -⟩ := hall (fun _ _ => 0xffffffff) xhcDevice 0xfee00000 0xc040 0
  obtain ⟨c, hends⟩ := (configureMSI_returns_iff_endsAt _ _ _ _ _).mp hreturns
  have hself : Link (fun _ _ => 0xffffffff) xhcDevice 0xff 0xff := ⟨by decide, rfl⟩
  exact hends.acyclic link_unique 0xff .refl (.single hself)

end UhyokOS.Pci
