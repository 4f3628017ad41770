import FixtureCheck.Proofs.Except
import FixtureCheck.Proofs.Json.Proper
import FixtureCheck.Yaml.Node.Parser

/-!
# Values of YAML are proper

What a YAML text is read as can be written as JSON and read back (`isProper_of_parse`): its numbers are in their one
form, and merged entries leave no key twice.
-/

namespace FixtureCheck.Yaml

open Json (IsProper)

variable {text : String} {tag : Tag} {node : Node} {v : Json}

/-! ## Scalars -/

theorem isCanonical_of_floatOf {x : Binary64} (h : floatOf text = .ok x) : x.IsCanonical := by
  unfold floatOf at h
  dsimp only at h
  split at h
  · cases h
    exact trivial
  · split at h
    · cases h
      exact trivial
    · split at h
      · cases h
      · split at h
        · cases h
          exact Binary64.isCanonical_ofDecimal _ _
        · cases h
          exact Binary64.isCanonical_ofDecimal _ _

theorem isProper_of_valueOf {kind : ScalarKind} (h : valueOf kind text = .ok v) : IsProper v := by
  unfold valueOf at h
  split at h
  · cases h
    exact .null
  · split at h
    · cases h
      exact .bool _
    · cases h
  · obtain ⟨n, -, rfl⟩ := map_eq_ok_iff.1 h
    exact .int n
  · obtain ⟨x, hx, rfl⟩ := map_eq_ok_iff.1 h
    exact .float (isCanonical_of_floatOf hx)
  · cases h
    exact .str text

theorem isProper_of_scalarValue (h : node.scalarValue tag text = .ok v) : IsProper v := by
  unfold Node.scalarValue at h
  split at h
  · cases h
    exact .null
  · exact isProper_of_valueOf h
  · exact isProper_of_valueOf h
  · exact isProper_of_valueOf h
  · cases h
  · cases h
  · cases h
  · cases h
  · cases h
    exact .str text

/-! ## Collections -/

section

variable {n : Nat} (ih : ∀ {node : Node} {v : Json}, node.value n = .ok v → IsProper v)
include ih

theorem isProper_of_sequence {items : List Node} {mark : Mark}
    (h : (Node.sequence tag items mark).value (n + 1) = .ok v) : IsProper v := by
  unfold Node.value at h
  obtain ⟨-, -, h⟩ := bind_eq_ok_iff.1 h
  dsimp only at h
  split at h
  · obtain ⟨values, hvalues, h⟩ := bind_eq_ok_iff.1 h
    cases h
    refine .arr fun value hv => ?_
    obtain ⟨item, -, hitem⟩ := mem_of_mapM hvalues hv
    exact ih hitem
  · obtain ⟨values, hvalues, h⟩ := bind_eq_ok_iff.1 h
    cases h
    refine .arr fun value hv => ?_
    obtain ⟨item, -, hitem⟩ := mem_of_mapM hvalues hv
    split at hitem
    · obtain ⟨key, hkey, hitem⟩ := bind_eq_ok_iff.1 hitem
      obtain ⟨inner, hinner, hitem⟩ := bind_eq_ok_iff.1 hitem
      cases hitem
      refine .arr fun part hp => ?_
      rcases List.mem_pair.1 hp with rfl | rfl
      · exact ih hkey
      · exact ih hinner
    · cases hitem
    · cases hitem
  all_goals cases h

theorem isProper_of_mapping {entries : List (Node × Node)} {mark : Mark}
    (h : (Node.mapping tag entries mark).value (n + 1) = .ok v) : IsProper v := by
  unfold Node.value at h
  obtain ⟨-, -, h⟩ := bind_eq_ok_iff.1 h
  dsimp only at h
  split at h
  case h_1 | h_2 =>
    obtain ⟨flat, -, h⟩ := bind_eq_ok_iff.1 h
    obtain ⟨values, hvalues, h⟩ := bind_eq_ok_iff.1 h
    cases h
    refine .ofEntries fun entry he => ?_
    obtain ⟨⟨key, inner⟩, -, hentry⟩ := mem_of_mapM hvalues he
    obtain ⟨key', -, hentry⟩ := bind_eq_ok_iff.1 hentry
    split at hentry
    · obtain ⟨value, hvalue, hentry⟩ := bind_eq_ok_iff.1 hentry
      cases hentry
      exact ih hvalue
    · cases hentry
  all_goals cases h

end

/-- Whatever a node is read as is proper, by induction on the depth to which it is opened. -/
theorem isProper_of_value {n : Nat} (h : node.value n = .ok v) : IsProper v := by
  induction n generalizing node v with
  | zero => cases h
  | succ n ih =>
    cases node with
    | scalar tag text mark =>
      unfold Node.value at h
      obtain ⟨-, -, h⟩ := bind_eq_ok_iff.1 h
      exact isProper_of_scalarValue h
    | sequence tag items mark => exact isProper_of_sequence ih h
    | mapping tag entries mark => exact isProper_of_mapping ih h

/-- **What a YAML text is read as is proper.** -/
theorem isProper_of_parse (h : parse text = .ok v) : IsProper v := by
  unfold parse at h
  obtain ⟨tokens, -, h⟩ := bind_eq_ok_iff.1 h
  obtain ⟨⟨root, reading⟩, -, h⟩ := bind_eq_ok_iff.1 h
  dsimp only at h
  split at h
  · cases h
    exact .null
  · exact isProper_of_value h

end FixtureCheck.Yaml
