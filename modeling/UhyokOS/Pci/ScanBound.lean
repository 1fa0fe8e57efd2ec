import UhyokOS.Pci.Scan

/-!
# Scans of any topology

The secondary bus of a bridge is what the device says it is: its own bus, bus `0`, or one further up.
No bus is marked as visited. The recursion ends because a function is added to `devices` before the
scan goes behind it, and because every loop returns at the first error.

* `DeviceTable.addDevice_spec`: a full table is an error, and otherwise one device is added.
* `scanBus_settles`: the buses that may still be nested are the free entries of the table and one more.
* `scanAllBus_settles`: on any topology the scan returns, whatever the fuel beyond that is.
-/

namespace UhyokOS.Pci

namespace DeviceTable

/-- What a scan may do to the table. The entries that are listed already stay, and no entry behind the
last one that is listed afterwards is written. -/
structure Grown (t t' : DeviceTable) : Prop where
  le : t.numDevice ≤ t'.numDevice
  old : ∀ (i : Nat) (h : i < 32), i < t.numDevice → t'.devices[i] = t.devices[i]
  unused : ∀ (i : Nat) (h : i < 32), t'.numDevice ≤ i → t'.devices[i] = t.devices[i]

variable {t t' t'' : DeviceTable}

/-- A scan that adds nothing leaves the table as it is. -/
theorem Grown.refl (t : DeviceTable) : Grown t t := ⟨le_rfl, fun _ _ _ => rfl, fun _ _ _ => rfl⟩

/-- Two scans, one after the other. What the first one listed is kept by the second, and what the
second does not use, the first has not used either. -/
theorem Grown.trans (h : Grown t t') (h' : Grown t' t'') : Grown t t'' where
  le := h.le.trans h'.le
  old := fun i hi hlt => (h'.old i hi (hlt.trans_le h.le)).trans (h.old i hi hlt)
  unused := fun i hi hle => (h'.unused i hi hle).trans (h.unused i hi (h'.le.trans hle))

/-- A full table is an error, and otherwise one device is added. -/
theorem addDevice_spec (t : DeviceTable) (device : Device) :
    (t.numDevice = 32 ∧ t.addDevice device = (.kFull, t)) ∨
      ∃ t', t.addDevice device = (.kSuccess, t') ∧ t'.numDevice = t.numDevice + 1 ∧ Grown t t' := by
  by_cases hfull : t.numDevice = 32
  · left
    unfold addDevice
    exact ⟨hfull, dif_pos hfull⟩
  · right
    unfold addDevice
    rw [dif_neg hfull]
    refine ⟨_, rfl, rfl, Nat.le_succ _, ?_, ?_⟩
    · intro i hi hlt
      exact Vector.getElem_set_ne (Nat.lt_of_le_of_ne t.le_size hfull) hi (Nat.ne_of_gt hlt)
    · intro i hi hle
      exact Vector.getElem_set_ne (Nat.lt_of_le_of_ne t.le_size hfull) hi (Nat.ne_of_lt hle)

end DeviceTable

/-- The ways a scan may end: the only error is that the table is full. -/
structure ScanOutcome (t : DeviceTable) (r : Error × DeviceTable) : Prop where
  error : r.1 = .kSuccess ∨ (r.1 = .kFull ∧ r.2.numDevice = 32)
  grown : t.Grown r.2

/-- With that much fuel or more, a scan that starts from a table returns the same. -/
def Settles (scan : Nat → ScanResult) (need : Nat) (t : DeviceTable) : Prop :=
  ∃ r, (∀ fuel, need ≤ fuel → scan fuel = some r) ∧ ScanOutcome t r

section settles

variable {α : Type} {space : ConfigSpace} {scan : Nat → ScanResult} {need need' : Nat}
  {t t' : DeviceTable}

/-- A scan that finds nothing to add succeeds. -/
theorem ScanOutcome.success (t : DeviceTable) : ScanOutcome t (.kSuccess, t) :=
  ⟨Or.inl rfl, .refl t⟩

/-- A scan after another one ends as the later one does. -/
theorem ScanOutcome.after (h : t.Grown t') {r : Error × DeviceTable} (h' : ScanOutcome t' r) :
    ScanOutcome t r := ⟨h'.error, h.trans h'.grown⟩

/-- A scan that looks at nothing returns at once, with any fuel. -/
theorem settles_success (need : Nat) (t : DeviceTable) :
    Settles (fun _ => some (.kSuccess, t)) need t :=
  ⟨_, fun _ _ => rfl, .success t⟩

/-- More fuel does not change what is returned. -/
theorem Settles.mono (hle : need ≤ need') (h : Settles scan need t) : Settles scan need' t := by
  obtain ⟨r, hscan, hr⟩ := h
  exact ⟨r, fun fuel hfuel => hscan fuel (hle.trans hfuel), hr⟩

/-- A scan that goes on after another one needs the fuel of the later one only. -/
theorem Settles.after (hgrown : t.Grown t') (h : Settles scan need t') : Settles scan need t := by
  obtain ⟨r, hscan, hr⟩ := h
  exact ⟨r, hscan, hr.after hgrown⟩

/-- **The rule of a loop.** Each iteration starts from a table that has grown. -/
theorem settles_forEach {body : Nat → α → DeviceTable → ScanResult} (xs : List α)
    (h : ∀ x ∈ xs, ∀ t', t.numDevice ≤ t'.numDevice → Settles (fun fuel => body fuel x t') need t') :
    Settles (fun fuel => forEach (body fuel) xs t) need t := by
  induction xs generalizing t with
  | nil => exact settles_success need t
  | cons x xs ih =>
      obtain ⟨⟨err, t₁⟩, hbody, hr⟩ := h x List.mem_cons_self t le_rfl
      by_cases herr : err = .kSuccess
      · subst herr
        obtain ⟨r, hrest, hr'⟩ := ih (t := t₁) fun y hy t' hle =>
          h y (List.mem_cons_of_mem _ hy) t' (hr.grown.le.trans hle)
        refine ⟨r, fun fuel hfuel => ?_, hr'.after hr.grown⟩
        exact (forEach_cons_of_success (hbody fuel hfuel)).trans (hrest fuel hfuel)
      · refine ⟨(err, t₁), fun fuel hfuel => ?_, hr⟩
        have hfirst : body fuel x t = some (err, t₁) := hbody fuel hfuel
        show forEach (body fuel) (x :: xs) t = _
        rw [forEach, hfirst, Option.bind_some]
        exact if_pos herr

/-- A function is added to the table before the bus behind it is scanned. -/
theorem settles_scanAt (hbehind : ∀ t'' : DeviceTable, t'.numDevice < t''.numDevice → ∀ bus,
    Settles (fun fuel => scanBus space fuel bus t'') (33 - t''.numDevice) t'') (l : Location) :
    Settles (fun fuel => scanAt space (scanBus space fuel) l t') (32 - t'.numDevice) t' := by
  unfold scanAt scanFunction
  simp only
  generalize (⟨l.bus, l.device, l.function, readHeaderType space l.bus l.device l.function,
    readClassCode space l.bus l.device l.function⟩ : Device) = device
  obtain ⟨hfull, hadd⟩ | ⟨t'', hadd, hnum, hgrown⟩ := t'.addDevice_spec device
  · refine ⟨(.kFull, t'), fun fuel _ => ?_, Or.inr ⟨rfl, hfull⟩, .refl t'⟩
    simp only [hadd]
    rfl
  · simp only [hadd, ne_eq, not_true_eq_false, if_false]
    by_cases hbridge : (readClassCode space l.bus l.device l.function).match₂ 0x06 0x04 = true
    · simp only [if_pos hbridge]
      exact ((hbehind t'' (by omega) _).mono (by omega)).after hgrown
    · simp only [if_neg hbridge]
      exact (settles_success _ t'').after hgrown

/-- **Scanning a bus.** By induction on the free entries of the table: behind a bridge there is one
less. -/
theorem scanBus_settles (space : ConfigSpace) (t : DeviceTable) (bus : UInt8) :
    Settles (fun fuel => scanBus space fuel bus t) (33 - t.numDevice) t := by
  induction hfree : 32 - t.numDevice using Nat.strong_induction_on generalizing t bus with
  | _ free ih =>
      have hsize := t.le_size
      have hnode : ∀ l ∈ space.functionsOn bus, ∀ t' : DeviceTable, t.numDevice ≤ t'.numDevice →
          Settles (fun fuel => scanAt space (scanBus space fuel) l t') (32 - t.numDevice) t' := by
        intro l _ t' hle
        refine (settles_scanAt (fun t'' hlt bus => ?_) l).mono (by omega)
        have hsize'' := t''.le_size
        exact ih (32 - t''.numDevice) (by omega) t'' bus rfl
      obtain ⟨r, hscan, hr⟩ := settles_forEach (space.functionsOn bus) hnode
      refine ⟨r, fun fuel hfuel => ?_, hr⟩
      -- this call itself takes one
      obtain ⟨fuel, rfl⟩ : ∃ f, fuel = f + 1 := ⟨fuel - 1, by omega⟩
      exact (scanBus_succ space fuel bus t).trans (hscan fuel (by omega))

end settles

/-- **PCI scanning terminates on every topology.** Whatever the configuration registers hold,
`ScanAllBus` returns, with never more than `devices.size() + 1` calls of `ScanBus` inside one another.
Afterwards `num_device` is at most `devices.size()`, and equal to it if the scan failed, which it can
only do with `kFull`. The entries from `num_device` on are as they were. -/
theorem scanAllBus_settles (space : ConfigSpace) (t : DeviceTable) :
    ∃ err t', (∀ fuel, 32 + 1 ≤ fuel → scanAllBus space fuel t = some (err, t')) ∧
      t'.numDevice ≤ 32 ∧ (err = .kSuccess ∨ (err = .kFull ∧ t'.numDevice = 32)) ∧
      ∀ (i : Nat) (h : i < 32), t'.numDevice ≤ i → t'.devices[i] = t.devices[i] := by
  have hscan : Settles (fun fuel => scanAllBus space fuel t) 33
      { t with numDevice := 0, le_size := Nat.zero_le 32 } := by
    unfold scanAllBus
    simp only
    by_cases hsingle : isSingleFunctionDevice (readHeaderType space 0 0 0) = true
    · simp only [if_pos hsingle]
      exact scanBus_settles space _ 0
    · simp only [if_neg hsingle]
      refine settles_forEach (counts 0 8) fun function _ t' _ => ?_
      by_cases habsent : readVendorId space 0 0 function = 0xffff
      · simp only [if_pos habsent]
        exact settles_success _ t'
      · simp only [if_neg habsent]
        exact (scanBus_settles space t' function).mono (by omega)
  obtain ⟨⟨err, t'⟩, hscan, hr⟩ := hscan
  exact ⟨err, t', hscan, t'.le_size, hr.error, hr.grown.unused⟩

end UhyokOS.Pci
