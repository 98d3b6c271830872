import VelocitasFix.Group.Progress
import Mathlib.Algebra.Order.Group.Multiset

/-!
This module contains the proof that the group parser accounts for every field it passes: what it
records are the fields behind the start index, each one once, whatever the definition and the count
say.
-/

namespace Velocitas

namespace RepeatingGroup

abbrev Field := UInt32 × Bytes

/-
The count field that a group was read from: the group has no more entries than it says. The count is
the value as the parser decodes it.
-/
structure Opens (g : RepeatingGroup) (f : Field) : Prop where
  tag_eq : f.1 = g.countTag
  count_eq : g.count = g.entries.length
  count_le : ∃ declared, MessageView.parseU64.go f.2 0 = some declared ∧ g.count ≤ declared.toNat

mutual

-- The group itself and the groups nested in it at any depth.
def groups : RepeatingGroup → List RepeatingGroup
  | ⟨countTag, count, entries⟩ => ⟨countTag, count, entries⟩ :: groupsOfEntries entries

def groupsOfEntries : List (GroupEntry RepeatingGroup) → List RepeatingGroup
  | [] => []
  | ⟨_, nested⟩ :: rest => groupsOfNested nested ++ groupsOfEntries rest

def groupsOfNested : List RepeatingGroup → List RepeatingGroup
  | [] => []
  | g :: rest => groups g ++ groupsOfNested rest

end

-- The fields recorded in the groups' entries.
def entryFields (gs : List RepeatingGroup) : List Field :=
  gs.flatMap fun g => g.entries.flatMap GroupEntry.fields

theorem groups_eq (g : RepeatingGroup) : g.groups = g :: groupsOfEntries g.entries := by
  cases g
  rw [groups]

theorem groupsOfEntries_cons (e : GroupEntry RepeatingGroup) (es : List (GroupEntry RepeatingGroup))
    : groupsOfEntries (e :: es) = groupsOfNested e.nested ++ groupsOfEntries es := by
  cases e
  rw [groupsOfEntries]

/-
The fields `xs` are those of the entries that are still to become a group's, the count fields of the
groups and what the groups' entries record; every entry has its fields in the order of `xs`.
-/
structure Account (entries : List (List Field)) (gs : List RepeatingGroup) (counts xs : List Field) :
    Prop where
  opens : List.Forall₂ Opens gs counts
  fields_eq : (entries.flatten + counts + entryFields gs : Multiset Field) = xs
  pending : ∀ fields ∈ entries, fields.Sublist xs
  ordered : ∀ g ∈ gs, ∀ e ∈ g.entries, e.fields.Sublist xs

namespace Account

variable {entries entries' : List (List Field)} {gs hs : List RepeatingGroup}
variable {counts counts' xs ys : List Field}

theorem nil : Account [] [] [] [] where
  opens := .nil
  fields_eq := rfl
  pending := by simp
  ordered := by simp

theorem nil_entry : Account [[]] [] [] [] where
  opens := .nil
  fields_eq := rfl
  pending := by simp
  ordered := by simp

theorem append (h : Account entries gs counts xs) (h' : Account entries' hs counts' ys)
    : Account (entries ++ entries') (gs ++ hs) (counts ++ counts') (xs ++ ys) where
  opens := List.rel_append h.opens h'.opens
  fields_eq := by
    have happend : entryFields (gs ++ hs) = entryFields gs ++ entryFields hs := List.flatMap_append
    rw [happend, List.flatten_append, ← Multiset.coe_add, ← Multiset.coe_add, ← Multiset.coe_add,
      ← Multiset.coe_add, ← h.fields_eq, ← h'.fields_eq]
    ac_rfl
  pending := by
    intro fields hmem
    cases List.mem_append.mp hmem with
    | inl hmem => exact (h.pending fields hmem).trans (List.sublist_append_left xs ys)
    | inr hmem => exact (h'.pending fields hmem).trans (List.sublist_append_right xs ys)
  ordered := by
    intro g hg e he
    cases List.mem_append.mp hg with
    | inl hg => exact (h.ordered g hg e he).trans (List.sublist_append_left xs ys)
    | inr hg => exact (h'.ordered g hg e he).trans (List.sublist_append_right xs ys)

-- A field goes to the entry that is being read.
theorem field {fields : List Field} (f : Field) (h : Account [fields] gs counts xs)
    : Account [f :: fields] gs counts (f :: xs) where
  opens := h.opens
  fields_eq := by
    rw [List.flatten_singleton, ← Multiset.cons_coe, ← Multiset.cons_coe, ← h.fields_eq,
      List.flatten_singleton, Multiset.cons_add, Multiset.cons_add]
  pending := by
    intro fields' hmem
    rw [List.mem_singleton] at hmem
    rw [hmem]
    exact (h.pending fields List.mem_cons_self).cons_cons f
  ordered := fun g hg e he => (h.ordered g hg e he).trans (List.sublist_cons_self f xs)

-- The entries that have been read become those of a group.
theorem group {g : RepeatingGroup} {f : Field} (hopens : g.Opens f)
    (h : Account (g.entries.map GroupEntry.fields) gs counts xs)
    : Account [] (g :: gs) (f :: counts) (f :: xs) where
  opens := .cons hopens h.opens
  fields_eq := by
    have hcons : entryFields (g :: gs) = g.entries.flatMap GroupEntry.fields ++ entryFields gs := rfl
    rw [hcons, ← Multiset.coe_add, ← Multiset.cons_coe, ← Multiset.cons_coe, ← h.fields_eq,
      ← List.flatMap_def, List.flatten_nil, Multiset.coe_nil, zero_add, Multiset.cons_add]
    congr 1
    ac_rfl
  pending := by simp
  ordered := by
    intro g' hg' e he
    apply List.Sublist.trans _ (List.sublist_cons_self f xs)
    cases List.mem_cons.mp hg' with
    | inl heq =>
      rw [heq] at he
      exact h.pending e.fields (List.mem_map_of_mem he)
    | inr hg' => exact h.ordered g' hg' e he

end Account

section Parse

variable (buffer : Bytes) (fieldEntries : List FieldEntry)

def fieldOf (entry : FieldEntry) : Field := (entry.tag, fieldValue buffer entry)

-- The fields between two indices.
def segment (start stop : Nat) : List Field :=
  ((fieldEntries.take stop).drop start).map (fieldOf buffer)

variable {buffer fieldEntries}

theorem segment_self (idx : Nat) : segment buffer fieldEntries idx idx = [] := by
  simp [segment]

theorem segment_append {start mid stop : Nat} (hstart : start ≤ mid) (hstop : mid ≤ stop)
    : segment buffer fieldEntries start mid ++ segment buffer fieldEntries mid stop
        = segment buffer fieldEntries start stop := by
  have htake : ((fieldEntries.take stop).drop start).take (mid - start)
      = (fieldEntries.take mid).drop start := by
    rw [← List.drop_take, List.take_take, Nat.min_eq_left hstop]
  have hdrop : ((fieldEntries.take stop).drop start).drop (mid - start)
      = (fieldEntries.take stop).drop mid := by
    rw [List.drop_drop, Nat.add_sub_cancel' hstart]
  rw [segment, segment, segment, ← List.map_append, ← htake, ← hdrop, List.take_append_drop]

theorem segment_cons {idx next : Nat} {entry : FieldEntry} (h : fieldEntries[idx]? = some entry)
    (hnext : idx + 1 ≤ next)
    : segment buffer fieldEntries idx next
        = fieldOf buffer entry :: segment buffer fieldEntries (idx + 1) next := by
  have hfirst : segment buffer fieldEntries idx (idx + 1) = [fieldOf buffer entry] := by
    obtain ⟨hlt, hentry⟩ := List.getElem?_eq_some_iff.mp h
    rw [segment, List.take_succ_eq_append_getElem hlt, hentry, List.drop_append_of_le_length]
    . simp
    . rw [List.length_take]
      omega
  rw [← segment_append (Nat.le_succ idx) hnext, hfirst, List.singleton_append]

theorem le_of_parseEntries {fuel count idx next : Nat} {d : GroupDef}
    {es : List (GroupEntry RepeatingGroup)}
    (h : parseEntries buffer fieldEntries fuel count idx d = (es, next))
    : idx ≤ next := by
  have hle : idx ≤ (parseEntries buffer fieldEntries fuel count idx d).2 :=
    (advances buffer fieldEntries fuel).entries
  rw [h] at hle
  exact hle

theorem le_of_parseMembers {fuel idx next : Nat} {d : GroupDef} {e : GroupEntry RepeatingGroup}
    (h : parseMembers buffer fieldEntries fuel idx d = (e, next))
    : idx ≤ next := by
  have hle : idx ≤ (parseMembers buffer fieldEntries fuel idx d).2 :=
    (advances buffer fieldEntries fuel).members
  rw [h] at hle
  exact hle

variable (buffer fieldEntries)

-- What a call of one of the three functions reads is accounted for.
structure Conserves (fuel : Nat) : Prop where
  group : ∀ {idx d g next}, parseFrom buffer fieldEntries fuel idx d = some (g, next) →
    next ≤ fieldEntries.length
      ∧ ∃ countEntry counts, fieldEntries[idx]? = some countEntry
          ∧ Account [] g.groups (fieldOf buffer countEntry :: counts)
            (segment buffer fieldEntries idx next)
  entries : ∀ {count idx d es next}, idx ≤ fieldEntries.length →
    parseEntries buffer fieldEntries fuel count idx d = (es, next) →
    next ≤ fieldEntries.length ∧ es.length ≤ count
      ∧ ∃ counts, Account (es.map GroupEntry.fields) (groupsOfEntries es) counts
          (segment buffer fieldEntries idx next)
  members : ∀ {idx d e next}, idx ≤ fieldEntries.length →
    parseMembers buffer fieldEntries fuel idx d = (e, next) →
    next ≤ fieldEntries.length
      ∧ ∃ counts, Account [e.fields] (groupsOfNested e.nested) counts
          (segment buffer fieldEntries idx next)

variable {buffer fieldEntries}

theorem account_stop (idx : Nat)
    : Account [] [] [] (segment buffer fieldEntries idx idx) := by
  rw [segment_self]
  exact .nil

theorem account_stop_entry (idx : Nat)
    : Account [[]] [] [] (segment buffer fieldEntries idx idx) := by
  rw [segment_self]
  exact .nil_entry

theorem Conserves.parseFrom {fuel : Nat} (ih : Conserves buffer fieldEntries fuel)
    {idx next : Nat} {d : GroupDef} {g : RepeatingGroup}
    (h : parseFrom buffer fieldEntries (fuel + 1) idx d = some (g, next))
    : next ≤ fieldEntries.length
        ∧ ∃ countEntry counts, fieldEntries[idx]? = some countEntry
            ∧ Account [] g.groups (fieldOf buffer countEntry :: counts)
              (segment buffer fieldEntries idx next) := by
  rw [RepeatingGroup.parseFrom] at h
  split at h
  . contradiction
  . next countEntry hsome =>
    have hlt := lt_of_getElem?_eq_some hsome
    split at h
    . contradiction
    . next htag =>
      rw [Decidable.not_not] at htag
      split at h
      . contradiction
      . next count hcount =>
        split at h
        . cases h
          refine ⟨hlt, countEntry, [], hsome, ?_⟩
          rw [groups_eq, segment_cons hsome (Nat.le_refl _)]
          exact .group ⟨htag, rfl, count, hcount, Nat.zero_le _⟩ (account_stop (idx + 1))
        . generalize hentries : parseEntries buffer fieldEntries fuel count.toNat (idx + 1) d = rest
            at h
          cases h
          obtain ⟨hnext, hlen, counts, haccount⟩ := ih.entries hlt hentries
          refine ⟨hnext, countEntry, counts, hsome, ?_⟩
          rw [groups_eq, segment_cons hsome (le_of_parseEntries hentries)]
          exact .group ⟨htag, rfl, count, hcount, hlen⟩ haccount

theorem Conserves.parseEntries {fuel : Nat} (ih : Conserves buffer fieldEntries fuel)
    {count idx next : Nat} {d : GroupDef} {es : List (GroupEntry RepeatingGroup)}
    (hidx : idx ≤ fieldEntries.length)
    (h : parseEntries buffer fieldEntries (fuel + 1) count idx d = (es, next))
    : next ≤ fieldEntries.length ∧ es.length ≤ count
        ∧ ∃ counts, Account (es.map GroupEntry.fields) (groupsOfEntries es) counts
            (segment buffer fieldEntries idx next) := by
  cases count with
  | zero =>
    rw [RepeatingGroup.parseEntries] at h
    cases h
    exact ⟨hidx, Nat.le_refl _, [], account_stop idx⟩
  | succ count =>
    rw [RepeatingGroup.parseEntries] at h
    split at h
    . cases h
      exact ⟨hidx, Nat.zero_le _, [], account_stop idx⟩
    . next entry hsome =>
      have hlt := lt_of_getElem?_eq_some hsome
      split at h
      . cases h
        exact ⟨hidx, Nat.zero_le _, [], account_stop idx⟩
      . generalize hmembers : parseMembers buffer fieldEntries fuel (idx + 1) d = rest at h
        obtain ⟨first, mid⟩ := rest
        dsimp only at h
        generalize hentries : RepeatingGroup.parseEntries buffer fieldEntries fuel count mid d = rest
          at h
        cases h
        obtain ⟨hmid, counts, hfirst⟩ := ih.members hlt hmembers
        obtain ⟨hnext, hlen, counts', hrest⟩ := ih.entries hmid hentries
        refine ⟨hnext, Nat.succ_le_succ hlen, counts ++ counts', ?_⟩
        have haccount := (hfirst.field (fieldOf buffer entry)).append hrest
        have hle := le_of_parseMembers hmembers
        rw [← segment_cons hsome hle,
          segment_append (Nat.le_of_succ_le hle) (le_of_parseEntries hentries)] at haccount
        rw [groupsOfEntries_cons]
        exact haccount

theorem Conserves.parseMembers {fuel : Nat} (ih : Conserves buffer fieldEntries fuel)
    {idx next : Nat} {d : GroupDef} {e : GroupEntry RepeatingGroup}
    (hidx : idx ≤ fieldEntries.length)
    (h : parseMembers buffer fieldEntries (fuel + 1) idx d = (e, next))
    : next ≤ fieldEntries.length
        ∧ ∃ counts, Account [e.fields] (groupsOfNested e.nested) counts
            (segment buffer fieldEntries idx next) := by
  rw [RepeatingGroup.parseMembers] at h
  split at h
  . cases h
    exact ⟨hidx, [], account_stop_entry idx⟩
  . next entry hsome =>
    have hlt := lt_of_getElem?_eq_some hsome
    split at h
    . cases h
      exact ⟨hidx, [], account_stop_entry idx⟩
    . split at h
      . next nestedGroup mid hnested =>
        obtain ⟨n, _, hgroup⟩ := Option.bind_eq_some_iff.mp hnested
        generalize hmembers : RepeatingGroup.parseMembers buffer fieldEntries fuel mid d = rest at h
        cases h
        obtain ⟨hmid, countEntry, counts, _, hfirst⟩ := ih.group hgroup
        obtain ⟨hnext, counts', hrest⟩ := ih.members hmid hmembers
        refine ⟨hnext, fieldOf buffer countEntry :: counts ++ counts', ?_⟩
        have haccount := hfirst.append hrest
        have hlt := (advances buffer fieldEntries fuel).group hgroup
        rw [segment_append (Nat.le_of_lt hlt) (le_of_parseMembers hmembers)] at haccount
        exact haccount
      . split at h
        . generalize hmembers : RepeatingGroup.parseMembers buffer fieldEntries fuel (idx + 1) d = rest
            at h
          cases h
          obtain ⟨hnext, counts, hrest⟩ := ih.members hlt hmembers
          refine ⟨hnext, counts, ?_⟩
          have haccount := hrest.field (fieldOf buffer entry)
          rw [← segment_cons hsome (le_of_parseMembers hmembers)] at haccount
          exact haccount
        . cases h
          exact ⟨hidx, [], account_stop_entry idx⟩

theorem conserves (fuel : Nat) : Conserves buffer fieldEntries fuel := by
  induction fuel with
  | zero =>
    constructor
    case group =>
      intro idx d g next h
      rw [parseFrom] at h
      contradiction
    case entries =>
      intro count idx d es next hidx h
      rw [parseEntries] at h
      cases h
      exact ⟨hidx, Nat.zero_le _, [], account_stop idx⟩
    case members =>
      intro idx d e next hidx h
      rw [parseMembers] at h
      cases h
      exact ⟨hidx, [], account_stop_entry idx⟩
  | succ fuel ih => exact ⟨ih.parseFrom, ih.parseEntries, ih.parseMembers⟩

-- What is recorded in a group, when the fields between the two indices have been read.
structure Conserved (buffer : Bytes) (fieldEntries : List FieldEntry) (startIndex : Nat)
    (g : RepeatingGroup) (next : Nat) : Prop where
  lt_next : startIndex < next
  next_le : next ≤ fieldEntries.length
  opens : ∃ countEntry, fieldEntries[startIndex]? = some countEntry
    ∧ g.Opens (fieldOf buffer countEntry)
  fields_eq : ∃ countEntry counts, fieldEntries[startIndex]? = some countEntry
    ∧ List.Forall₂ Opens g.groups (fieldOf buffer countEntry :: counts)
    ∧ ((fieldOf buffer countEntry :: counts) + entryFields g.groups : Multiset Field)
      = segment buffer fieldEntries startIndex next
  ordered : ∀ h ∈ g.groups, ∀ e ∈ h.entries,
    e.fields.Sublist (segment buffer fieldEntries startIndex next)

theorem parse_conserves (buffer : Bytes) (fieldEntries : List FieldEntry) (startIndex : Nat)
    (groupDef : GroupDef)
    : (∀ fuel, 2 * (fieldEntries.length - startIndex) ≤ fuel →
          parseFrom buffer fieldEntries fuel startIndex groupDef
            = parse buffer fieldEntries startIndex groupDef)
        ∧ ∀ g next, parse buffer fieldEntries startIndex groupDef = some (g, next) →
            Conserved buffer fieldEntries startIndex g next := by
  constructor
  . intro fuel hfuel
    apply parseFrom_eq_parse buffer fieldEntries groupDef hfuel
  . intro g next h
    have hlt := (advances buffer fieldEntries _).group h
    obtain ⟨hle, countEntry, counts, hsome, haccount⟩ := (conserves _).group h
    refine ⟨hlt, hle, ⟨countEntry, hsome, ?_⟩,
      ⟨countEntry, counts, hsome, haccount.opens, ?_⟩, haccount.ordered⟩
    . have hopens := haccount.opens
      rw [groups_eq, List.forall₂_cons] at hopens
      exact hopens.1
    . have heq := haccount.fields_eq
      rw [List.flatten_nil, Multiset.coe_nil, zero_add] at heq
      exact heq

def testBuffer : Bytes := ascii "268=2\x01269=0\x01270=5\x0155=X\x01"

def testEntries : List FieldEntry := [⟨268, 4, 1⟩, ⟨269, 10, 1⟩, ⟨270, 16, 1⟩, ⟨55, 21, 1⟩]

-- Two entries are declared, one follows.
theorem parse_conserves_testEntries
    : parseFrom testBuffer testEntries 9 0 mdEntriesGroup
          = parse testBuffer testEntries 0 mdEntriesGroup
        ∧ Conserved testBuffer testEntries 0
            ⟨268, 1, [⟨[(269, ascii "0"), (270, ascii "5")], []⟩]⟩ 3 :=
  ⟨(parse_conserves testBuffer testEntries 0 mdEntriesGroup).1 9 (by decide),
    (parse_conserves testBuffer testEntries 0 mdEntriesGroup).2 _ _ (by with_unfolding_all rfl)⟩

end Parse

end RepeatingGroup

end Velocitas
