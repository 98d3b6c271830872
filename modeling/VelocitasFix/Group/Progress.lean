import VelocitasFix.Group.Impl

/-!
This module contains the proof that the group parser moves on with every field that it reads, so that
the bound on its rounds is never reached.
-/

namespace Velocitas

namespace RepeatingGroup

variable (buffer : Bytes) (fieldEntries : List FieldEntry)

theorem lt_of_getElem?_eq_some {fieldEntries : List FieldEntry} {idx : Nat} {entry : FieldEntry}
    (h : fieldEntries[idx]? = some entry)
    : idx < fieldEntries.length :=
  (List.getElem?_eq_some_iff.mp h).1

-- No function goes back, and a group takes one field at least.
structure Advances (fuel : Nat) : Prop where
  group : ∀ {idx d g next}, parseFrom buffer fieldEntries fuel idx d = some (g, next) → idx < next
  entries : ∀ {count idx d}, idx ≤ (parseEntries buffer fieldEntries fuel count idx d).2
  members : ∀ {idx d}, idx ≤ (parseMembers buffer fieldEntries fuel idx d).2

theorem advances (fuel : Nat) : Advances buffer fieldEntries fuel := by
  induction fuel with
  | zero =>
    constructor
    case group =>
      intro idx d g next h
      rw [parseFrom] at h
      contradiction
    case entries =>
      intro count idx d
      rw [parseEntries]
    case members =>
      intro idx d
      rw [parseMembers]
  | succ fuel ih =>
    constructor
    case group =>
      intro idx d g next h
      rw [parseFrom] at h
      split at h
      . contradiction
      . split at h
        . contradiction
        . split at h
          . contradiction
          . next count _ =>
            split at h
            . injection h with h
              injection h with _ h
              omega
            . have hle : idx + 1
                  ≤ (parseEntries buffer fieldEntries fuel count.toNat (idx + 1) d).2 := ih.entries
              injection h with h
              injection h with _ h
              omega
    case entries =>
      intro count idx d
      cases count with
      | zero => rw [parseEntries]
      | succ count =>
        rw [parseEntries]
        split
        . exact Nat.le_refl _
        . split
          . exact Nat.le_refl _
          . have hmembers : idx + 1 ≤ (parseMembers buffer fieldEntries fuel (idx + 1) d).2 :=
              ih.members
            generalize parseMembers buffer fieldEntries fuel (idx + 1) d = rest at hmembers
            have hentries : rest.2 ≤ (parseEntries buffer fieldEntries fuel count rest.2 d).2 :=
              ih.entries
            exact Nat.le_trans (Nat.le_of_succ_le hmembers) hentries
    case members =>
      intro idx d
      rw [parseMembers]
      split
      . exact Nat.le_refl _
      . split
        . exact Nat.le_refl _
        . split
          . next nestedGroup next hnested =>
            obtain ⟨n, _, hgroup⟩ := Option.bind_eq_some_iff.mp hnested
            have hlt := ih.group hgroup
            exact Nat.le_trans (Nat.le_of_lt hlt) ih.members
          . split
            . exact Nat.le_trans (Nat.le_succ idx) ih.members
            . exact Nat.le_refl _

-- One round more makes no difference.
structure Settled (fuel : Nat) : Prop where
  group : ∀ {idx d}, 2 * (fieldEntries.length - idx) ≤ fuel →
    parseFrom buffer fieldEntries (fuel + 1) idx d = parseFrom buffer fieldEntries fuel idx d
  entries : ∀ {count idx d}, 2 * (fieldEntries.length - idx) + 1 ≤ fuel →
    parseEntries buffer fieldEntries (fuel + 1) count idx d
      = parseEntries buffer fieldEntries fuel count idx d
  members : ∀ {idx d}, 2 * (fieldEntries.length - idx) + 1 ≤ fuel →
    parseMembers buffer fieldEntries (fuel + 1) idx d
      = parseMembers buffer fieldEntries fuel idx d

theorem settled (fuel : Nat) : Settled buffer fieldEntries fuel := by
  induction fuel with
  | zero =>
    constructor
    case group =>
      intro idx d h
      have hnone : fieldEntries[idx]? = none := by
        rw [List.getElem?_eq_none_iff]
        omega
      conv_lhs => rw [parseFrom, hnone]
      rw [parseFrom]
    case entries =>
      intro count idx d h
      omega
    case members =>
      intro idx d h
      omega
  | succ fuel ih =>
    constructor
    case group =>
      intro idx d h
      conv_lhs => rw [parseFrom]
      conv_rhs => rw [parseFrom]
      split
      . rfl
      . next hsome =>
        have hlt := lt_of_getElem?_eq_some hsome
        split
        . rfl
        . split
          . rfl
          . rw [ih.entries (by omega)]
    case entries =>
      intro count idx d h
      cases count with
      | zero => rw [parseEntries, parseEntries]
      | succ count =>
        conv_lhs => rw [parseEntries]
        conv_rhs => rw [parseEntries]
        split
        . rfl
        . next hsome =>
          have hlt := lt_of_getElem?_eq_some hsome
          have hle : idx + 1 ≤ (parseMembers buffer fieldEntries fuel (idx + 1) d).2 :=
            (advances buffer fieldEntries fuel).members
          split
          . rfl
          . rw [ih.members (by omega)]
            dsimp only
            rw [ih.entries (by omega)]
    case members =>
      intro idx d h
      conv_lhs => rw [parseMembers]
      conv_rhs => rw [parseMembers]
      split
      . rfl
      . next entry hsome =>
        have hlt := lt_of_getElem?_eq_some hsome
        have hnested : parseFrom buffer fieldEntries (fuel + 1) idx
            = parseFrom buffer fieldEntries fuel idx := by
          funext n
          exact ih.group (by omega)
        rw [hnested]
        split
        . rfl
        . split
          . next nestedGroup next hgroup =>
            obtain ⟨n, _, hgroup⟩ := Option.bind_eq_some_iff.mp hgroup
            have hnext := (advances buffer fieldEntries fuel).group hgroup
            rw [ih.members (by omega)]
          . rw [ih.members (by omega)]

theorem parseFrom_eq_parse {fuel startIndex : Nat} (groupDef : GroupDef)
    (h : 2 * (fieldEntries.length - startIndex) ≤ fuel)
    : parseFrom buffer fieldEntries fuel startIndex groupDef
        = parse buffer fieldEntries startIndex groupDef := by
  unfold parse
  induction fuel, h using Nat.le_induction with
  | base => rfl
  | succ fuel hle ih => rw [(settled buffer fieldEntries fuel).group hle, ih]

end RepeatingGroup

end Velocitas
