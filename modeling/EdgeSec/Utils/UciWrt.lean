import EdgeSec.Utils.Net

/-!
# Firewall sections in the OpenWRT UCI store

On OpenWRT the firewall service keeps its rules as sections of the UCI package `firewall`
(`src/utils/uci_wrt.c`).  `uwrt_add_firewall_nat` writes four sections for an address, named
`edgesec_<ip>_dnat`, `_snat`, `_forward` and `_backward`, and `uwrt_add_firewall_bridge`
writes one section for each direction of a pair, `edgesec_<sip>_<dip>`; the delete functions
remove the same names.  The `<ip>` part is `IP_SECTION_STR`, the four octets printed with
`"%d%d%d%d"`.

The package is a map from section names to sections (a type and its options).  A property
string `firewall.<section>=<type>` or `firewall.<section>.<option>=<value>` is kept as the
structure `UciProperty` of its parts, which is what `uci_lookup_ptr` reads back from it.

## Main results

* `uwrtAddFirewallNat_spec`, `uwrtDeleteFirewallNat_spec`: the NAT sections of an address
  are created or removed, and no other section is touched;
* `uwrtAddFirewallBridge_spec`, `uwrtDeleteFirewallBridge_spec`: the same for the two
  sections of a pair;
* `uci_section_names_collide`: `IP_SECTION_STR` is not injective, and deleting the NAT or a
  bridge of `192.168.11.1` removes the sections created for `192.168.1.11`.
-/

namespace EdgeSec

namespace UciWrt

open Net

/-! ## Section names -/

/-- `IP_SECTION_STR` ("%d%d%d%d") applied to the four octets. -/
def ipSectionStr (buf : Vector UInt8 4) : String :=
  toString (buf.get 0).toNat ++ toString (buf.get 1).toNat ++ toString (buf.get 2).toNat ++
    toString (buf.get 3).toNat

/-- The name `edgesec_<ip>_<suffix>` of a NAT section. -/
def natSection (buf : Vector UInt8 4) (suffix : String) : String :=
  "edgesec_" ++ ipSectionStr buf ++ "_" ++ suffix

/-- The name `edgesec_<sip>_<dip>` of a bridge section. -/
def bridgeSection (sip dip : Vector UInt8 4) : String :=
  "edgesec_" ++ ipSectionStr sip ++ "_" ++ ipSectionStr dip

/-- The four sections of a NAT, in the order `uwrt_delete_firewall_nat` deletes them. -/
def natSections (buf : Vector UInt8 4) : List String :=
  [natSection buf "backward", natSection buf "forward", natSection buf "snat", natSection buf "dnat"]

/-- The two sections of a bridge, in the order `uwrt_delete_firewall_bridge` deletes them. -/
def bridgeSections (sip dip : Vector UInt8 4) : List String :=
  [bridgeSection sip dip, bridgeSection dip sip]

/-! ## The UCI package -/

/-- A section: its type and its options in the order they were set. -/
structure UciSection where
  type : String
  options : List (String × String)
  deriving Repr, DecidableEq

/-- The `firewall` package: the section of each name that has one. -/
abbrev UciPackage := String → Option UciSection

/-- `firewall.<sectionName>=<value>` when `option` is `none`, else
`firewall.<sectionName>.<option>=<value>`. -/
structure UciProperty where
  sectionName : String
  option : Option String
  value : String
  deriving Repr, DecidableEq

/-- Setting an option: its value replaced, or the option added after the others. -/
def setOption (options : List (String × String)) (o v : String) : List (String × String) :=
  if options.any (·.1 = o) then options.map fun kv => if kv.1 = o then (o, v) else kv
  else options ++ [(o, v)]

/-- `uwrt_set_property` (`uci_lookup_ptr`, `uci_set`, `uci_save`): a section type creates the
section or changes its type; an option needs its section.  `none` is the `-1`. -/
def uwrtSetProperty (pkg : UciPackage) (p : UciProperty) : Option UciPackage :=
  match p.option with
  | none =>
      let options := ((pkg p.sectionName).map UciSection.options).getD []
      some (Function.update pkg p.sectionName (some ⟨p.value, options⟩))
  | some o =>
      match pkg p.sectionName with
      | none => none
      | some s =>
          some (Function.update pkg p.sectionName (some { s with options := setOption s.options o p.value }))

/-- `uwrt_set_properties`: the properties in order, stopping at the first that fails (the
ones before it stay set). -/
def uwrtSetProperties : UciPackage → List UciProperty → Bool × UciPackage
  | pkg, [] => (true, pkg)
  | pkg, p :: ps =>
      match uwrtSetProperty pkg p with
      | none => (false, pkg)
      | some pkg' => uwrtSetProperties pkg' ps

/-- `uwrt_delete_property`: the section is removed; a missing one is an error the caller
ignores, and leaves the package as it is. -/
def uwrtDeleteProperty (pkg : UciPackage) (name : String) : UciPackage :=
  Function.update pkg name none

/-- `uwrt_delete_properties`: every name, errors ignored. -/
def uwrtDeleteProperties (pkg : UciPackage) (names : List String) : UciPackage :=
  names.foldl uwrtDeleteProperty pkg

/-- The properties that make a section of the given type with the given options, as the
source lists them: the section first, then each option. -/
def sectionProperties (name type : String) (options : List (String × String)) : List UciProperty :=
  ⟨name, none, type⟩ :: options.map fun ov => ⟨name, some ov.1, ov.2⟩

/-! ## The firewall functions -/

/-- The properties `uwrt_add_firewall_nat` sets for the address `ipAddr` of the bridge
`brname`, with the NAT interface `natName`. -/
def firewallNatProperties (buf : Vector UInt8 4) (brname ipAddr natName : String) :
    List UciProperty :=
  sectionProperties (natSection buf "dnat") "nat"
      [("enabled", "1"), ("name", "DNAT " ++ ipAddr), ("src", natName), ("src_ip", "0.0.0.0"),
        ("dest", brname), ("dest_ip", ipAddr), ("proto", "all"), ("target", "DNAT")] ++
    sectionProperties (natSection buf "snat") "nat"
      [("enabled", "1"), ("name", "SNAT " ++ ipAddr), ("src", brname), ("src_ip", ipAddr),
        ("dest", natName), ("dest_ip", "0.0.0.0"), ("proto", "all"), ("target", "SNAT")] ++
    sectionProperties (natSection buf "forward") "rule"
      [("enabled", "1"), ("name", "Forward " ++ ipAddr), ("src", brname), ("src_ip", ipAddr),
        ("dest", natName), ("proto", "all"), ("target", "ACCEPT")] ++
    sectionProperties (natSection buf "backward") "rule"
      [("enabled", "1"), ("name", "Backward " ++ ipAddr), ("src", natName), ("dest", brname),
        ("dest_ip", ipAddr), ("proto", "all"), ("target", "ACCEPT")]

/-- `uwrt_add_firewall_nat`: `false` is the `-1` of a string `ip4_2_buf` refuses or of a
failed property. -/
def uwrtAddFirewallNat (pkg : UciPackage) (brname ipAddr natName : String)
    (stale : Vector UInt8 4) : Bool × UciPackage :=
  match ip4ToBuf ipAddr.toList stale with
  | none => (false, pkg)
  | some buf => uwrtSetProperties pkg (firewallNatProperties buf brname ipAddr natName)

/-- `uwrt_delete_firewall_nat`. -/
def uwrtDeleteFirewallNat (pkg : UciPackage) (ipAddr : String) (stale : Vector UInt8 4) :
    Bool × UciPackage :=
  match ip4ToBuf ipAddr.toList stale with
  | none => (false, pkg)
  | some buf => (true, uwrtDeleteProperties pkg (natSections buf))

/-- The rule of one direction of a bridge, from `sip` on `sbr` to `dip` on `dbr`. -/
def bridgeRuleProperties (sipBuf dipBuf : Vector UInt8 4) (sip sbr dip dbr : String) :
    List UciProperty :=
  sectionProperties (bridgeSection sipBuf dipBuf) "rule"
    [("enabled", "1"), ("name", "Bridge " ++ sip ++ "->" ++ dip), ("src", sbr), ("src_ip", sip),
      ("dest", dbr), ("dest_ip", dip), ("proto", "all"), ("target", "ACCEPT")]

/-- `uwrt_add_firewall_bridge`: the rule of each direction.  The stale bytes are those of
`sip_buf` and `dip_buf`. -/
def uwrtAddFirewallBridge (pkg : UciPackage) (sip sbr dip dbr : String)
    (staleS staleD : Vector UInt8 4) : Bool × UciPackage :=
  match ip4ToBuf sip.toList staleS, ip4ToBuf dip.toList staleD with
  | some sipBuf, some dipBuf =>
      uwrtSetProperties pkg (bridgeRuleProperties sipBuf dipBuf sip sbr dip dbr ++
        bridgeRuleProperties dipBuf sipBuf dip dbr sip sbr)
  | _, _ => (false, pkg)

/-- `uwrt_delete_firewall_bridge`. -/
def uwrtDeleteFirewallBridge (pkg : UciPackage) (sip dip : String)
    (staleS staleD : Vector UInt8 4) : Bool × UciPackage :=
  match ip4ToBuf sip.toList staleS, ip4ToBuf dip.toList staleD with
  | some sipBuf, some dipBuf => (true, uwrtDeleteProperties pkg (bridgeSections sipBuf dipBuf))
  | _, _ => (false, pkg)

/-! ## Setting properties -/

/-- A property that is set changes only its own section. -/
theorem uwrtSetProperty_of_ne {pkg pkg' : UciPackage} {p : UciProperty}
    (h : uwrtSetProperty pkg p = some pkg') {k : String} (hk : k ≠ p.sectionName) : pkg' k = pkg k := by
  unfold uwrtSetProperty at h
  split at h
  · cases h
    exact Function.update_of_ne hk _ _
  · split at h
    · cases h
    · cases h
      exact Function.update_of_ne hk _ _

/-- A property that is set leaves its section present, and removes no section. -/
theorem uwrtSetProperty_isSome {pkg pkg' : UciPackage} {p : UciProperty}
    (h : uwrtSetProperty pkg p = some pkg') (k : String) (hk : k = p.sectionName ∨ (pkg k).isSome) :
    (pkg' k).isSome := by
  by_cases hname : k = p.sectionName
  · subst hname
    unfold uwrtSetProperty at h
    split at h
    · cases h
      simp
    · split at h
      · cases h
      · cases h
        simp
  · rw [uwrtSetProperty_of_ne h hname]
    exact hk.resolve_left hname

/-- Setting the options of a section that is present: they all succeed and touch only it. -/
theorem uwrtSetProperties_options (name : String) (options : List (String × String))
    (rest : List UciProperty) (pkg : UciPackage) (hpkg : (pkg name).isSome) :
    ∃ pkg' : UciPackage, (∀ k, k ≠ name → pkg' k = pkg k) ∧ (∀ k, (pkg k).isSome → (pkg' k).isSome) ∧
      uwrtSetProperties pkg (options.map (fun ov => ⟨name, some ov.1, ov.2⟩) ++ rest) =
        uwrtSetProperties pkg' rest := by
  induction options generalizing pkg with
  | nil => exact ⟨pkg, fun _ _ => rfl, fun _ h => h, rfl⟩
  | cons ov options ih =>
      obtain ⟨s, hs⟩ := Option.isSome_iff_exists.1 hpkg
      set pkg₁ := Function.update pkg name (some { s with options := setOption s.options ov.1 ov.2 })
      have hset : uwrtSetProperty pkg ⟨name, some ov.1, ov.2⟩ = some pkg₁ := by
        simp only [uwrtSetProperty, hs, pkg₁]
      obtain ⟨pkg', hframe, hsome, hrun⟩ := ih pkg₁ (uwrtSetProperty_isSome hset name (Or.inl rfl))
      refine ⟨pkg', fun k hk => ?_, fun k hk => hsome k (uwrtSetProperty_isSome hset k (Or.inr hk)), ?_⟩
      · rw [hframe k hk]
        exact uwrtSetProperty_of_ne hset hk
      · rw [List.map_cons, List.cons_append, uwrtSetProperties, hset]
        exact hrun

/-- Setting a whole section: it succeeds, makes the section present, and touches no other. -/
theorem uwrtSetProperties_section (name type : String) (options : List (String × String))
    (rest : List UciProperty) (pkg : UciPackage) :
    ∃ pkg' : UciPackage, (∀ k, k ≠ name → pkg' k = pkg k) ∧
      (∀ k, k = name ∨ (pkg k).isSome → (pkg' k).isSome) ∧
      uwrtSetProperties pkg (sectionProperties name type options ++ rest) = uwrtSetProperties pkg' rest := by
  set pkg₁ := Function.update pkg name (some ⟨type, ((pkg name).map UciSection.options).getD []⟩)
  have hset : uwrtSetProperty pkg ⟨name, none, type⟩ = some pkg₁ := rfl
  obtain ⟨pkg', hframe, hsome, hrun⟩ :=
    uwrtSetProperties_options name options rest pkg₁ (uwrtSetProperty_isSome hset name (Or.inl rfl))
  refine ⟨pkg', fun k hk => ?_, fun k hk => hsome k (uwrtSetProperty_isSome hset k hk), ?_⟩
  · rw [hframe k hk]
    exact uwrtSetProperty_of_ne hset hk
  · rw [sectionProperties, List.cons_append, uwrtSetProperties, hset]
    exact hrun

/-- A run of whole sections: all succeed, the sections are present, and every other section is
as it was. -/
theorem uwrtSetProperties_sections (blocks : List (String × String × List (String × String)))
    (pkg : UciPackage) :
    ∃ pkg' : UciPackage,
      uwrtSetProperties pkg (blocks.flatMap fun b => sectionProperties b.1 b.2.1 b.2.2) = (true, pkg') ∧
      (∀ k, k ∉ blocks.map (·.1) → pkg' k = pkg k) ∧ (∀ k ∈ blocks.map (·.1), (pkg' k).isSome) := by
  -- the sections still to set are `blocks`; those set so far stay present
  suffices h : ∀ pkg₀ : UciPackage, ∃ pkg' : UciPackage,
      uwrtSetProperties pkg₀ (blocks.flatMap fun b => sectionProperties b.1 b.2.1 b.2.2) = (true, pkg') ∧
      (∀ k, k ∉ blocks.map (·.1) → pkg' k = pkg₀ k) ∧
      (∀ k, k ∈ blocks.map (·.1) ∨ (pkg₀ k).isSome → (pkg' k).isSome) by
    obtain ⟨pkg', hrun, hframe, hsome⟩ := h pkg
    exact ⟨pkg', hrun, hframe, fun k hk => hsome k (Or.inl hk)⟩
  induction blocks with
  | nil =>
      intro pkg₀
      refine ⟨pkg₀, rfl, fun _ _ => rfl, fun k hk => ?_⟩
      simpa using hk
  | cons b blocks ih =>
      intro pkg₀
      obtain ⟨pkg₁, hframe₁, hsome₁, hrun₁⟩ := uwrtSetProperties_section b.1 b.2.1 b.2.2
        (blocks.flatMap fun b => sectionProperties b.1 b.2.1 b.2.2) pkg₀
      obtain ⟨pkg', hrun, hframe, hsome⟩ := ih pkg₁
      refine ⟨pkg', ?_, fun k hk => ?_, fun k hk => ?_⟩
      · rw [List.flatMap_cons, hrun₁, hrun]
      · simp only [List.map_cons, List.mem_cons, not_or] at hk
        rw [hframe k hk.2, hframe₁ k hk.1]
      · simp only [List.map_cons, List.mem_cons] at hk
        refine hsome k ?_
        rcases hk with (hk | hk) | hk
        · exact Or.inr (hsome₁ k (Or.inl hk))
        · exact Or.inl hk
        · exact Or.inr (hsome₁ k (Or.inr hk))

/-! ## Deleting sections -/

/-- After deleting a list of names, exactly those sections are gone. -/
theorem uwrtDeleteProperties_apply (names : List String) (pkg : UciPackage) (k : String) :
    uwrtDeleteProperties pkg names k = if k ∈ names then none else pkg k := by
  induction names generalizing pkg with
  | nil => simp [uwrtDeleteProperties]
  | cons name names ih =>
      rw [uwrtDeleteProperties, List.foldl_cons, ← uwrtDeleteProperties, ih]
      by_cases hk : k = name
      · simp [hk, uwrtDeleteProperty]
      · simp only [List.mem_cons, hk, false_or, uwrtDeleteProperty, Function.update_of_ne hk]

/-! ## The firewall functions touch only their own sections -/

theorem firewallNatProperties_eq (buf : Vector UInt8 4) (brname ipAddr natName : String) :
    firewallNatProperties buf brname ipAddr natName =
      ([(natSection buf "dnat", "nat", [("enabled", "1"), ("name", "DNAT " ++ ipAddr),
          ("src", natName), ("src_ip", "0.0.0.0"), ("dest", brname), ("dest_ip", ipAddr),
          ("proto", "all"), ("target", "DNAT")]),
        (natSection buf "snat", "nat", [("enabled", "1"), ("name", "SNAT " ++ ipAddr),
          ("src", brname), ("src_ip", ipAddr), ("dest", natName), ("dest_ip", "0.0.0.0"),
          ("proto", "all"), ("target", "SNAT")]),
        (natSection buf "forward", "rule", [("enabled", "1"), ("name", "Forward " ++ ipAddr),
          ("src", brname), ("src_ip", ipAddr), ("dest", natName), ("proto", "all"),
          ("target", "ACCEPT")]),
        (natSection buf "backward", "rule", [("enabled", "1"), ("name", "Backward " ++ ipAddr),
          ("src", natName), ("dest", brname), ("dest_ip", ipAddr), ("proto", "all"),
          ("target", "ACCEPT")])] : List (String × String × List (String × String))).flatMap
        fun b => sectionProperties b.1 b.2.1 b.2.2 := by
  simp only [firewallNatProperties, List.flatMap_cons, List.flatMap_nil, List.append_nil,
    List.append_assoc]

/-- `uwrt_add_firewall_nat` on an address `ip4_2_buf` accepts: its four sections are present
afterwards, and every other section is as it was. -/
theorem uwrtAddFirewallNat_spec (pkg : UciPackage) (brname ipAddr natName : String)
    {stale buf : Vector UInt8 4} (hbuf : ip4ToBuf ipAddr.toList stale = some buf) :
    ∃ pkg', uwrtAddFirewallNat pkg brname ipAddr natName stale = (true, pkg') ∧
      (∀ k, k ∉ natSections buf → pkg' k = pkg k) ∧ ∀ k ∈ natSections buf, (pkg' k).isSome := by
  obtain ⟨pkg', hrun, hframe, hsome⟩ := uwrtSetProperties_sections _ pkg
  refine ⟨pkg', ?_, fun k hk => hframe k ?_, fun k hk => hsome k ?_⟩
  · rw [uwrtAddFirewallNat, hbuf]
    dsimp only
    rw [firewallNatProperties_eq, hrun]
  · simp only [natSections, List.mem_cons, not_or] at hk
    simp [hk.1, hk.2.1, hk.2.2.1, hk.2.2.2.1]
  · simp only [natSections, List.mem_cons] at hk
    simp only [List.map_cons, List.map_nil, List.mem_cons]
    rcases hk with rfl | rfl | rfl | rfl | hnil <;> simp at *

/-- `uwrt_delete_firewall_nat` on an address `ip4_2_buf` accepts: its four sections are gone,
and every other section is as it was. -/
theorem uwrtDeleteFirewallNat_spec (pkg : UciPackage) (ipAddr : String)
    {stale buf : Vector UInt8 4} (hbuf : ip4ToBuf ipAddr.toList stale = some buf) (k : String) :
    (uwrtDeleteFirewallNat pkg ipAddr stale).2 k = if k ∈ natSections buf then none else pkg k := by
  rw [uwrtDeleteFirewallNat, hbuf]
  exact uwrtDeleteProperties_apply _ pkg k

/-- `uwrt_add_firewall_bridge` on two addresses `ip4_2_buf` accepts: both rules are present
afterwards, and every other section is as it was. -/
theorem uwrtAddFirewallBridge_spec (pkg : UciPackage) (sip sbr dip dbr : String)
    {staleS staleD sipBuf dipBuf : Vector UInt8 4} (hsip : ip4ToBuf sip.toList staleS = some sipBuf)
    (hdip : ip4ToBuf dip.toList staleD = some dipBuf) :
    ∃ pkg', uwrtAddFirewallBridge pkg sip sbr dip dbr staleS staleD = (true, pkg') ∧
      (∀ k, k ∉ bridgeSections sipBuf dipBuf → pkg' k = pkg k) ∧
      ∀ k ∈ bridgeSections sipBuf dipBuf, (pkg' k).isSome := by
  obtain ⟨pkg', hrun, hframe, hsome⟩ := uwrtSetProperties_sections
    [(bridgeSection sipBuf dipBuf, "rule", [("enabled", "1"), ("name", "Bridge " ++ sip ++ "->" ++ dip),
        ("src", sbr), ("src_ip", sip), ("dest", dbr), ("dest_ip", dip), ("proto", "all"),
        ("target", "ACCEPT")]),
      (bridgeSection dipBuf sipBuf, "rule", [("enabled", "1"), ("name", "Bridge " ++ dip ++ "->" ++ sip),
        ("src", dbr), ("src_ip", dip), ("dest", sbr), ("dest_ip", sip), ("proto", "all"),
        ("target", "ACCEPT")])] pkg
  refine ⟨pkg', ?_, fun k hk => hframe k ?_, fun k hk => hsome k ?_⟩
  · rw [uwrtAddFirewallBridge, hsip, hdip]
    dsimp only
    rw [← hrun]
    simp only [bridgeRuleProperties, List.flatMap_cons, List.flatMap_nil, List.append_nil]
  · simpa [bridgeSections] using hk
  · simpa [bridgeSections] using hk

/-- `uwrt_delete_firewall_bridge` on two addresses `ip4_2_buf` accepts: both rules are gone,
and every other section is as it was. -/
theorem uwrtDeleteFirewallBridge_spec (pkg : UciPackage) (sip dip : String)
    {staleS staleD sipBuf dipBuf : Vector UInt8 4} (hsip : ip4ToBuf sip.toList staleS = some sipBuf)
    (hdip : ip4ToBuf dip.toList staleD = some dipBuf) (k : String) :
    (uwrtDeleteFirewallBridge pkg sip dip staleS staleD).2 k =
      if k ∈ bridgeSections sipBuf dipBuf then none else pkg k := by
  rw [uwrtDeleteFirewallBridge, hsip, hdip]
  exact uwrtDeleteProperties_apply _ pkg k

/-! ## Names that collide -/

/-- Without a separator between the octets, `192.168.1.11` and `192.168.11.1` print the same
digits. -/
theorem ipSectionStr_collision :
    ipSectionStr #v[192, 168, 1, 11] = ipSectionStr #v[192, 168, 11, 1] := by
  decide

theorem uci_section_names_collide (pkg : UciPackage) (brname natName sbr dbr : String)
    (stale staleS staleD : Vector UInt8 4) :
    ¬ Function.Injective ipSectionStr ∧
      (∀ k ∈ natSections #v[192, 168, 1, 11],
        ((uwrtAddFirewallNat pkg brname "192.168.1.11" natName stale).2 k).isSome ∧
          (uwrtDeleteFirewallNat (uwrtAddFirewallNat pkg brname "192.168.1.11" natName stale).2
            "192.168.11.1" stale).2 k = none) ∧
      (∀ k ∈ bridgeSections #v[192, 168, 1, 11] #v[10, 0, 0, 1],
        ((uwrtAddFirewallBridge pkg "192.168.1.11" sbr "10.0.0.1" dbr staleS staleD).2 k).isSome ∧
          (uwrtDeleteFirewallBridge
            (uwrtAddFirewallBridge pkg "192.168.1.11" sbr "10.0.0.1" dbr staleS staleD).2
            "192.168.11.1" "10.0.0.1" staleS staleD).2 k = none) := by
  -- the three strings are the dotted quads of their octets
  have ha : ∀ st, ip4ToBuf "192.168.1.11".toList st = some #v[192, 168, 1, 11] := by
    rw [show "192.168.1.11" = dotted #v[192, 168, 1, 11] by decide]
    exact ip4ToBuf_dotted _
  have hb : ∀ st, ip4ToBuf "192.168.11.1".toList st = some #v[192, 168, 11, 1] := by
    rw [show "192.168.11.1" = dotted #v[192, 168, 11, 1] by decide]
    exact ip4ToBuf_dotted _
  have hc : ∀ st, ip4ToBuf "10.0.0.1".toList st = some #v[10, 0, 0, 1] := by
    rw [show "10.0.0.1" = dotted #v[10, 0, 0, 1] by decide]
    exact ip4ToBuf_dotted _
  have hnat : natSections #v[192, 168, 11, 1] = natSections #v[192, 168, 1, 11] := by
    unfold natSections natSection
    rw [ipSectionStr_collision]
  have hbridge : bridgeSections #v[192, 168, 11, 1] #v[10, 0, 0, 1] =
      bridgeSections #v[192, 168, 1, 11] #v[10, 0, 0, 1] := by
    unfold bridgeSections bridgeSection
    rw [ipSectionStr_collision]
  refine ⟨fun hinj => absurd (hinj ipSectionStr_collision) (by decide), fun k hk => ?_,
    fun k hk => ?_⟩
  · obtain ⟨pkg', hadd, -, hsome⟩ := uwrtAddFirewallNat_spec pkg brname _ natName (ha stale)
    rw [hadd]
    refine ⟨hsome k hk, ?_⟩
    rw [uwrtDeleteFirewallNat_spec _ _ (hb stale), hnat, if_pos hk]
  · obtain ⟨pkg', hadd, -, hsome⟩ :=
      uwrtAddFirewallBridge_spec pkg _ sbr _ dbr (ha staleS) (hc staleD)
    rw [hadd]
    refine ⟨hsome k hk, ?_⟩
    rw [uwrtDeleteFirewallBridge_spec _ _ _ (hb staleS) (hc staleD), hbridge, if_pos hk]

end UciWrt

end EdgeSec
