import MediaSession.Proofs.Description.Blocks
import MediaSession.Proofs.Description.SameMedia
import MediaSession.Proofs.Description.WrittenLines

/-!
# Tracks that are written and read again

A track is written with the attributes that resolving has left to it, so it is read again from less than it was read from
at first. What has gone is what it does not look at: encodings and format parameters of other payload types and all control
addresses but the last. An attribute whose name changes on the way, because of blanks at its end, has no value, so it
names no payload type and no address. So the track says the same of its medium as before.
-/

namespace MediaSession

namespace Track

/-! ## Values of attributes that are written and read again -/

theorem valuesFor_append (name : Text) (p : UInt8) (before after : List Attribute) :
    valuesFor name p (before ++ after) = valuesFor name p before ++ valuesFor name p after := by
  rw [valuesFor, List.filter_append, List.map_append]
  rfl

/-- A value that is empty begins with no payload type, so reading attributes again changes no value for one. -/
theorem valuesFor_map_reread (name : Text) (p : UInt8) (attrs : List Attribute) :
    valuesFor name p (attrs.map Attribute.reread) = valuesFor name p attrs := by
  have hnone : leadingPayloadType? [] = none := by decide
  induction attrs with
  | nil => rfl
  | cons a rest ih =>
    have hone : valuesFor name p [a.reread] = valuesFor name p [a] := by
      by_cases hv : a.value = []
      · simp [valuesFor, Attribute.reread_value, hv, hnone]
      · rw [Attribute.reread_of_value_ne_nil hv]
    rw [List.map_cons, ← List.singleton_append, valuesFor_append, hone, ih, ← valuesFor_append, List.singleton_append]

/-- Writing loses control addresses only. -/
theorem valuesFor_writtenAttributes {name : Text} (h : name ≠ "control".toList) (p : UInt8) (t : Track) :
    valuesFor name p t.writtenAttributes = valuesFor name p t.attributes := by
  have hlast : valuesFor name p (t.attributes.filter (·.name == "control".toList)).getLast?.toList = [] := by
    rw [valuesFor, List.map_eq_nil_iff, List.filter_eq_nil_iff]
    intro a ha
    rw [Bool.and_eq_true]
    rintro ⟨hn, -⟩
    exact h ((beq_iff_eq.1 hn).symm.trans (name_of_getLast?_control (Option.mem_toList.1 ha)))
  rw [writtenAttributes, valuesFor_append, hlast, List.append_nil, valuesFor, List.filter_filter]
  congr 1
  apply List.filter_congr
  intro a _
  by_cases hn : a.name = name
  · have hother : (a.name != "control".toList) = true := bne_iff_ne.2 (by rw [hn]; exact h)
    rw [hother, Bool.and_true]
  · simp [hn]

/-- The last control address stays the last one. Where there was none, an attribute that is read as a control address has
lost blanks at the end of its name, and the address is empty. -/
theorem getLast?_control_reread {t u : Track} (hu : u.attributes = t.writtenAttributes.map Attribute.reread) :
    (u.valuesOf "control".toList).getLast?.getD [] = (t.valuesOf "control".toList).getLast?.getD [] := by
  rw [valuesOf, valuesOf, hu, List.getLast?_map, List.getLast?_map]
  cases hlast : (t.attributes.filter (·.name == "control".toList)).getLast? with
  | none =>
    cases hread : ((t.writtenAttributes.map Attribute.reread).filter (·.name == "control".toList)).getLast? with
    | none => rfl
    | some b =>
      obtain ⟨hb, hname⟩ := List.mem_filter.1 (List.mem_of_getLast? hread)
      obtain ⟨a, ha, rfl⟩ := List.mem_map.1 hb
      rw [writtenAttributes, hlast, Option.toList_none, List.append_nil] at ha
      have hother := (List.mem_filter.1 ha).2
      by_cases hv : a.value = []
      · simp [Attribute.reread_value, hv]
      · rw [Attribute.reread_of_value_ne_nil hv] at hname
        simp [beq_iff_eq.1 hname] at hother
  | some c =>
    have hname := name_of_getLast?_control hlast
    have hc : c.reread = c := Attribute.reread_of_trimEnd_name (by rw [hname]; decide)
    rw [writtenAttributes, hlast, Option.toList_some, List.map_append, List.map_singleton, hc, List.filter_append,
      List.filter_cons_of_pos (by simp [hname]), List.filter_nil, List.getLast?_concat]

/-! ## The lines of a block -/

/-- Lines change nothing that a track says of its medium but the bandwidth. -/
theorem sameMedia_addLines (t : Track) (lines : List Line) :
    SameMedia (t.addLines lines) { t with bandwidth := (t.addLines lines).bandwidth } := by
  refine List.foldlRecOn (motive := fun u : Track => SameMedia u { t with bandwidth := u.bandwidth }) _ _
    ⟨rfl, rfl, rfl, rfl, rfl, rfl, rfl, rfl⟩ ?_
  intro u hu line _
  cases line with
  | bandwidth value => exact { hu with bandwidth := rfl }
  | _ => exact { hu with }

/-- Attributes are added in order, and nothing else changes. -/
theorem addLines_attributes (t : Track) (attrs : List Attribute) :
    t.addLines (attrs.map .attribute) = { t with attributes := t.attributes ++ attrs } := by
  induction attrs generalizing t with
  | nil => simp [addLines]
  | cons a rest ih =>
    have hstep : t.addLines ((a :: rest).map .attribute) = (t.addLine (.attribute a)).addLines (rest.map .attribute) := rfl
    rw [hstep, ih]
    simp [addLine]

/-- The track of a written block before its attributes are looked at. -/
theorem addLines_rereadLines (t : Track) (port : UInt16) :
    (ofMediaLine (t.offer port)).addLines t.rereadLines =
      { ofMediaLine (t.offer port) with
        bandwidth := t.bandwidth, attributes := t.writtenAttributes.map Attribute.reread } := by
  have hattrs : ∀ u : Track, u.addLines (t.writtenAttributes.map fun a => .attribute a.reread) =
      { u with attributes := u.attributes ++ t.writtenAttributes.map Attribute.reread } := by
    intro u
    rw [← addLines_attributes, List.map_map]
    rfl
  have hsplit : ∀ (u : Track) (before after : List Line),
      u.addLines (before ++ after) = (u.addLines before).addLines after := fun _ _ _ => List.foldl_append
  rw [rereadLines, hsplit, hattrs]
  by_cases hb : t.bandwidth = []
  · rw [if_pos hb, hb]
    rfl
  · rw [if_neg hb]
    rfl

/-! ## The track of a block -/

/-- The track that a media line and the lines after it are read as. -/
def ofBlock (m : MediaLine) (lines : List Line) : Track :=
  Id.run (((ofMediaLine m).addLines lines).resolve configuredRate?)

/-- The block of a media line that can be read is no title. -/
theorem kind_addLines_ne_title {m : MediaLine} (hmedia : m.media ≠ []) (lines : List Line) :
    ((ofMediaLine m).addLines lines).kind ≠ .title := by
  rw [(sameMedia_addLines (ofMediaLine m) lines).kind]
  exact TrackKind.ofMedia_ne_title hmedia

/-- Lines leave the payload type that the media line declares. -/
theorem payloadType_addLines (m : MediaLine) (lines : List Line) :
    ((ofMediaLine m).addLines lines).payloadType = m.payloadType :=
  (sameMedia_addLines (ofMediaLine m) lines).payloadType

section

variable {m : MediaLine} (hm : m.payloadType ≠ unsetPayloadType) (hmedia : m.media ≠ []) (lines : List Line)
include hm hmedia

/-- Before its attributes are looked at, the track is that of a medium, and its payload type is declared. -/
theorem declared_addLines :
    ((ofMediaLine m).addLines lines).kind ≠ .title ∧ ((ofMediaLine m).addLines lines).payloadType ≠ unsetPayloadType := by
  rw [payloadType_addLines]
  exact ⟨kind_addLines_ne_title hmedia lines, hm⟩

/-- A declared payload type stays declared. -/
theorem payloadType_ofBlock : (ofBlock m lines).payloadType = m.payloadType := by
  obtain ⟨hk, hp⟩ := declared_addLines hm hmedia lines
  rw [ofBlock, payloadType_resolve configuredRate? hk hp, payloadType_addLines]

theorem attributes_ofBlock : (ofBlock m lines).attributes = ((ofMediaLine m).addLines lines).keptAttributes := by
  obtain ⟨hk, hp⟩ := declared_addLines hm hmedia lines
  rw [ofBlock, attributes_resolve configuredRate? hk hp]

end

/-- The attributes of a track are attributes of its lines. -/
theorem sublist_ofBlock (m : MediaLine) (lines : List Line) :
    (ofBlock m lines).attributes.Sublist ((ofMediaLine m).addLines lines).attributes := by
  rw [ofBlock, resolve_eq]
  exact sublist_resolveAttributes _

/-- The values of tidy lines are tidy in the track. -/
theorem tidy_ofBlock (m : MediaLine) {lines : List Line} (hlines : ∀ line ∈ lines, line.Tidy) : (ofBlock m lines).Tidy := by
  have hraw : ((ofMediaLine m).addLines lines).Tidy :=
    Tidy.addLines ⟨⟨List.not_mem_nil, rfl⟩, fun _ ha => absurd ha List.not_mem_nil⟩ hlines
  refine ⟨?_, fun a ha => hraw.attributes a ((sublist_ofBlock m lines).subset ha)⟩
  rw [ofBlock, bandwidth_resolve]
  exact hraw.bandwidth

theorem kind_ofBlock (m : MediaLine) (lines : List Line) : (ofBlock m lines).kind = .ofMedia m.media :=
  (Session.comesFrom_resolve configuredRate? m lines).1

/-- The track that is read from the block of a written one. -/
def reread (t : Track) (port : UInt16) : Track := ofBlock (t.offer port) t.rereadLines

/-- The port of a track is the one under which it was written. -/
theorem port_reread (t : Track) (port : UInt16) : (t.reread port).port = port :=
  (Session.comesFrom_resolve configuredRate? (t.offer port) t.rereadLines).2

/-- A track that has kept the medium, the payload type and the bandwidth of its block is offered by a block that is alike
before its attributes are looked at. -/
theorem sameMedia_addLines_reread {m : MediaLine} {lines : List Line} {t : Track} (hkind : t.kind = .ofMedia m.media)
    (htitle : t.kind ≠ .title) (hpayload : t.payloadType = m.payloadType)
    (hbandwidth : t.bandwidth = ((ofMediaLine m).addLines lines).bandwidth) (port : UInt16) :
    SameMedia ((ofMediaLine m).addLines lines) ((ofMediaLine (t.offer port)).addLines t.rereadLines) := by
  have hraw := sameMedia_addLines (ofMediaLine m) lines
  rw [addLines_rereadLines]
  exact
    { kind := hraw.kind.trans (hkind.symm.trans ((TrackKind.ofMedia_name_iff t.kind).2 htitle).symm)
      payloadType := hraw.payloadType.trans hpayload.symm
      codec := hraw.codec
      sampleRate := hraw.sampleRate.trans (congrArg PayloadTable.clockRate hpayload.symm)
      channels := hraw.channels.trans (congrArg PayloadTable.channels hpayload.symm)
      format := hraw.format
      bandwidth := hbandwidth.symm
      control := hraw.control }

/-- The track of a block with a declared payload type says the same of its medium when it is written and read again. -/
theorem sameMedia_reread {m : MediaLine} (hm : m.payloadType ≠ unsetPayloadType) (hmedia : m.media ≠ [])
    (lines : List Line) (port : UInt16) : SameMedia (ofBlock m lines) ((ofBlock m lines).reread port) := by
  obtain ⟨hk, hp⟩ := declared_addLines hm hmedia lines
  have hkind := kind_ofBlock m lines
  have htitle : (ofBlock m lines).kind ≠ .title := by
    rw [hkind]
    exact TrackKind.ofMedia_ne_title hmedia
  have hsame := sameMedia_addLines_reread hkind htitle (payloadType_ofBlock hm hmedia lines)
    (bandwidth_resolve configuredRate? _) port
  have hattrs := attributes_ofBlock hm hmedia lines
  have hreread := addLines_rereadLines (ofBlock m lines) port
  have hvalues : ∀ name : Text, name ≠ "control".toList →
      valuesFor name ((ofMediaLine m).addLines lines).payloadType ((ofMediaLine m).addLines lines).attributes =
        valuesFor name ((ofMediaLine m).addLines lines).payloadType
          ((ofMediaLine ((ofBlock m lines).offer port)).addLines (ofBlock m lines).rereadLines).attributes := by
    intro name hname
    rw [hreread, valuesFor_map_reread, valuesFor_writtenAttributes hname, hattrs, valuesFor_keptAttributes]
  refine hsame.resolve hk hp (hvalues _ (by decide)) (hvalues _ (by decide)) ?_
  have hlast := getLast?_control_reread (congrArg attributes hreread)
  have hcontrols : (ofBlock m lines).valuesOf "control".toList =
      ((ofMediaLine m).addLines lines).valuesOf "control".toList := by
    rw [valuesOf, hattrs, filter_control_keptAttributes, ← valuesOf]
  rw [hcontrols] at hlast
  rw [← hsame.control, (sameMedia_addLines (ofMediaLine m) lines).control]
  exact hlast.symm

end Track

end MediaSession
