import MediaSession.Error
import MediaSession.Text.Numeral

/-!
# Ranges of ports

Media travels on pairs of neighbouring ports: the pair with index `i` has the even port `2 * i` for the packets and the
odd port `2 * i + 1` for their control. A range of ports has the pairs that lie in it with at least one more port after
them. The range is set in the configuration, as two numbers with a hyphen between them.
-/

namespace MediaSession

/-- The ports from `min` to `max`, both included. -/
structure PortRange where
  min : UInt16
  max : UInt16
  deriving DecidableEq, Repr

/-- A configuration: the values that are set, by their keys. -/
abbrev Settings := Text → Option Text

namespace PortRange

/-- The key of the range in a configuration. -/
def key : Text := "rtp_proxy.port_range".toList

/-- The range where none is set. -/
def usual : PortRange := ⟨30000, 35000⟩

/-- The range that a text writes. The smaller number comes first; blanks around the text and around the hyphen do not
count. -/
def read (text : Text) : Except Error PortRange :=
  match Text.cut? '-' (Text.trim text) with
  | none => .error (.invalidPortRange text)
  | some (min, max) =>
    match Text.readUInt16? (Text.trim min), Text.readUInt16? (Text.trim max) with
    | some min, some max => if max < min then .error (.invalidPortRange text) else .ok ⟨min, max⟩
    | _, _ => .error (.invalidPortRange text)

/-- The text of a range. -/
def write (r : PortRange) : Text := Text.ofNat r.min.toNat ++ '-' :: Text.ofNat r.max.toNat

/-- Whether the range holds enough ports. -/
def isWide (r : PortRange) : Bool := r.min.toNat + minPortSpan ≤ r.max.toNat + 1

/-- Refuses a range that holds too few ports. -/
def validate (r : PortRange) : Except Error Unit :=
  if r.isWide then .ok () else .error (.portRangeTooNarrow r.min r.max)

/-- The range that a configuration sets, if it holds enough ports. -/
def ofSettings (settings : Settings) : Except Error PortRange := do
  let range ←
    match settings key with
    | some value => read value
    | none => pure usual
  range.validate
  return range

/-- The index of the first pair. -/
def firstPair (r : PortRange) : UInt16 := UInt16.ofNat ((r.min.toNat + 1) / 2)

/-- The index after that of the last pair. -/
def endPair (r : PortRange) : UInt16 := r.max / 2

/-- The indices of the pairs, in ascending order. -/
def pairIndices (r : PortRange) : List UInt16 :=
  (List.range' r.firstPair.toNat (r.endPair.toNat - r.firstPair.toNat)).map UInt16.ofNat

/-! ## Small facts -/

theorem validate_eq_ok_iff {r : PortRange} : r.validate = .ok () ↔ r.min.toNat + minPortSpan ≤ r.max.toNat + 1 := by
  simp [validate, isWide]

/-- What is set, or else the usual range, is given if it is wide enough. -/
theorem ofSettings_eq (settings : Settings) :
    ofSettings settings = ((settings key).elim (.ok usual) read).bind fun r => r.validate.map fun _ => r := by
  unfold ofSettings
  cases settings key <;> rfl

theorem toNat_firstPair (r : PortRange) : r.firstPair.toNat = (r.min.toNat + 1) / 2 := by
  have h := r.min.toNat_lt
  rw [firstPair, UInt16.toNat_ofNat']
  omega

theorem toNat_endPair (r : PortRange) : r.endPair.toNat = r.max.toNat / 2 := by
  rw [endPair, UInt16.toNat_div]
  rfl

/-- The pairs of a range are those that lie in it with at least one more port after them. -/
theorem mem_pairIndices {r : PortRange} {i : UInt16} :
    i ∈ r.pairIndices ↔ r.min.toNat ≤ 2 * i.toNat ∧ 2 * i.toNat + 2 ≤ r.max.toNat := by
  have hmax := r.max.toNat_lt
  simp only [pairIndices, List.mem_map, List.mem_range'_1, toNat_firstPair, toNat_endPair]
  constructor
  · rintro ⟨n, hn, rfl⟩
    rw [UInt16.toNat_ofNat']
    omega
  · intro h
    exact ⟨i.toNat, by omega, UInt16.ofNat_toNat⟩

/-- Both ports of a pair of a range exist. -/
theorem port_lt {r : PortRange} {i : UInt16} (h : i ∈ r.pairIndices) : 2 * i.toNat + 1 < UInt16.size := by
  have hmax := r.max.toNat_lt
  have hsize : UInt16.size = 65536 := rfl
  have hlast := (mem_pairIndices.1 h).2
  omega

/-- No index stands twice among the pairs of a range. -/
theorem nodup_pairIndices (r : PortRange) : r.pairIndices.Nodup := by
  have hmax := r.max.toNat_lt
  rw [pairIndices, List.Nodup, List.pairwise_map]
  refine List.Pairwise.imp_of_mem ?_ (List.nodup_range' 1 (by decide))
  intro a b ha hb hab heq
  simp only [List.mem_range'_1, toNat_firstPair, toNat_endPair] at ha hb
  have h := congrArg UInt16.toNat heq
  rw [UInt16.toNat_ofNat', UInt16.toNat_ofNat'] at h
  omega

end PortRange

end MediaSession
