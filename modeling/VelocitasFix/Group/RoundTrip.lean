import VelocitasFix.Group.Impl
import VelocitasFix.Message.Lemmas
import Mathlib.Data.List.Forall2
import Mathlib.Data.List.Nodup
import Mathlib.Data.List.Pairwise

/-!
This module contains the instances of a group definition, and the proof that the parser gets an
instance back from its fields, wherever they stand in a message.
-/

namespace Velocitas

open Ascii

namespace GroupDef

-- All tags of a definition and of the ones nested in it.
def tags : GroupDef → List UInt32
  | ⟨countTag, _, memberTags, nestedGroups⟩ =>
    countTag :: (memberTags ++ nestedGroups.flatMap tags)

-- The tags that an entry holds.
def entryTags (d : GroupDef) : List UInt32 := d.memberTags ++ d.nestedGroups.flatMap tags

theorem tags_eq (d : GroupDef) : d.tags = d.countTag :: d.entryTags := by
  cases d
  rw [tags]
  rfl

inductive Delimited : GroupDef → Prop where
  | mk {d : GroupDef} (hmember : d.delimiterTag ∈ d.memberTags)
    (hnested : ∀ n ∈ d.nestedGroups, n.Delimited)
    : d.Delimited

-- No tag has two uses, and the delimiter of each group is one of its members.
structure WellFormed (d : GroupDef) : Prop where
  nodup : d.tags.Nodup
  delimited : d.Delimited

section WellFormed

variable {d n n' : GroupDef} {tag : UInt32}

theorem WellFormed.delimiter (h : d.WellFormed) : d.delimiterTag ∈ d.memberTags := by
  cases h.delimited with
  | mk hmember _ => exact hmember

theorem WellFormed.nested (h : d.WellFormed) (hn : n ∈ d.nestedGroups) : n.WellFormed where
  nodup := by
    have hnodup := h.nodup
    rw [tags_eq, entryTags, List.nodup_cons, List.nodup_append] at hnodup
    exact (List.nodup_flatMap.mp hnodup.2.2.1).1 n hn
  delimited := by
    cases h.delimited with
    | mk _ hnested => exact hnested n hn

theorem mem_entryTags (hn : n ∈ d.nestedGroups) (htag : tag ∈ n.tags) : tag ∈ d.entryTags :=
  List.mem_append_right _ (List.mem_flatMap.mpr ⟨n, hn, htag⟩)

theorem countTag_mem_tags (n : GroupDef) : n.countTag ∈ n.tags := by
  rw [tags_eq]
  exact List.mem_cons_self

theorem WellFormed.not_mem_nested (h : d.WellFormed) (htag : tag ∈ d.memberTags)
    (hn : n ∈ d.nestedGroups)
    : tag ∉ n.tags := by
  have hnodup := h.nodup
  rw [tags_eq, entryTags, List.nodup_cons, List.nodup_append] at hnodup
  intro hmem
  exact hnodup.2.2.2 tag htag tag (List.mem_flatMap.mpr ⟨n, hn, hmem⟩) rfl

-- Two nested definitions have no tag in common, unless they are the same.
theorem WellFormed.eq_of_mem_tags (h : d.WellFormed) (hn : n ∈ d.nestedGroups)
    (hn' : n' ∈ d.nestedGroups) (htag : tag ∈ n.tags) (htag' : tag ∈ n'.tags)
    : n = n' := by
  have hnodup := h.nodup
  rw [tags_eq, entryTags, List.nodup_cons, List.nodup_append, List.nodup_flatMap] at hnodup
  have hsymm : Std.Symm (Function.onFun List.Disjoint tags) :=
    ⟨fun _ _ hdisjoint _ hmem hmem' => hdisjoint hmem' hmem⟩
  by_contra hne
  exact hnodup.2.2.1.2.forall hn hn' hne htag htag'

theorem WellFormed.findNested_of_mem (h : d.WellFormed) (hn : n ∈ d.nestedGroups)
    : d.findNested n.countTag = some n := by
  unfold findNested
  cases hfind : d.nestedGroups.find? (·.countTag = n.countTag) with
  | none =>
    rw [List.find?_eq_none] at hfind
    exact absurd (by simp) (hfind n hn)
  | some n' =>
    have hn' := List.mem_of_find?_eq_some hfind
    have hcount : n'.countTag = n.countTag := by simpa using List.find?_some hfind
    congr 1
    exact h.eq_of_mem_tags hn' hn (hcount ▸ n'.countTag_mem_tags) n.countTag_mem_tags

theorem WellFormed.findNested_of_member (h : d.WellFormed) (htag : tag ∈ d.memberTags)
    : d.findNested tag = none := by
  unfold findNested
  rw [List.find?_eq_none]
  intro n hn hcount
  apply h.not_mem_nested htag hn
  rw [decide_eq_true_eq] at hcount
  rw [← hcount]
  exact n.countTag_mem_tags

theorem findNested_of_not_mem (htag : tag ∉ d.entryTags) : d.findNested tag = none := by
  unfold findNested
  rw [List.find?_eq_none]
  intro n hn hcount
  apply htag
  rw [decide_eq_true_eq] at hcount
  rw [← hcount]
  exact mem_entryTags hn n.countTag_mem_tags

-- A count does not stand inside of the entries that another count begins.
theorem WellFormed.countTag_not_mem (h : d.WellFormed) (hn : n ∈ d.nestedGroups)
    (hn' : n' ∈ d.nestedGroups)
    : n'.countTag ∉ n.entryTags := by
  intro hmem
  have htag : n'.countTag ∈ n.tags := by
    rw [tags_eq]
    exact List.mem_cons_of_mem _ hmem
  obtain rfl := h.eq_of_mem_tags hn hn' htag n'.countTag_mem_tags
  have hnodup := (h.nested hn).nodup
  rw [tags_eq, List.nodup_cons] at hnodup
  exact hnodup.1 hmem

end WellFormed

mutual

-- The fields of an instance of a definition, and the instance.
inductive Instance : GroupDef → List (UInt32 × Bytes) → RepeatingGroup → Prop where
  | mk {d : GroupDef} {pairs : List (UInt32 × Bytes)} {entries : List (GroupEntry RepeatingGroup)}
    (h : Entries d pairs entries)
    : Instance d ((d.countTag, decimal entries.length) :: pairs)
        ⟨d.countTag, entries.length, entries⟩

inductive Entries : GroupDef → List (UInt32 × Bytes) → List (GroupEntry RepeatingGroup) → Prop where
  | nil {d : GroupDef} : Entries d [] []
  | cons {d : GroupDef} {value : Bytes} {members pairs : List (UInt32 × Bytes)}
    {rest : GroupEntry RepeatingGroup} {entries : List (GroupEntry RepeatingGroup)}
    (hmembers : Members d members rest) (hentries : Entries d pairs entries)
    : Entries d ((d.delimiterTag, value) :: (members ++ pairs))
        (⟨(d.delimiterTag, value) :: rest.fields, rest.nested⟩ :: entries)

-- Behind the delimiter the fields and the nested groups of an entry stand in any order.
inductive Members : GroupDef → List (UInt32 × Bytes) → GroupEntry RepeatingGroup → Prop where
  | nil {d : GroupDef} : Members d [] ⟨[], []⟩
  | field {d : GroupDef} {tag : UInt32} {value : Bytes} {pairs : List (UInt32 × Bytes)}
    {rest : GroupEntry RepeatingGroup} (htag : tag ∈ d.memberTags) (hne : tag ≠ d.delimiterTag)
    (h : Members d pairs rest)
    : Members d ((tag, value) :: pairs) ⟨(tag, value) :: rest.fields, rest.nested⟩
  | group {d n : GroupDef} {inner pairs : List (UInt32 × Bytes)} {group : RepeatingGroup}
    {rest : GroupEntry RepeatingGroup} (hn : n ∈ d.nestedGroups) (hgroup : Instance n inner group)
    (h : Members d pairs rest)
    : Members d (inner ++ pairs) ⟨rest.fields, group :: rest.nested⟩

end

theorem Members.head_tag {d : GroupDef} {pair : UInt32 × Bytes} {pairs : List (UInt32 × Bytes)}
    {rest : GroupEntry RepeatingGroup} (h : Members d (pair :: pairs) rest)
    : pair.1 ∈ d.memberTags ∨ ∃ n ∈ d.nestedGroups, pair.1 = n.countTag := by
  generalize hpairs : pair :: pairs = all at h
  cases h with
  | nil => contradiction
  | field htag _ _ =>
    injection hpairs with hpair
    rw [hpair]
    exact .inl htag
  | @group _ n inner _ _ _ hn hgroup _ =>
    cases hgroup with
    | mk _ =>
      injection hpairs with hpair
      rw [hpair]
      exact .inr ⟨n, hn, rfl⟩

theorem Entries.length_le {d : GroupDef} {pairs : List (UInt32 × Bytes)}
    {entries : List (GroupEntry RepeatingGroup)} (h : Entries d pairs entries)
    : entries.length ≤ pairs.length := by
  induction entries generalizing pairs with
  | nil => exact Nat.zero_le _
  | cons entry entries ih =>
    cases h with
    | cons _ hentries =>
      have hle := ih hentries
      simp only [List.length_cons, List.length_append]
      omega

end GroupDef

namespace RepeatingGroup

open GroupDef

-- The field entry of this tag and this value.
def Shows (buffer : Bytes) (entry : FieldEntry) (pair : UInt32 × Bytes) : Prop :=
  entry.tag = pair.1 ∧ entry.offset.toNat + entry.length.toNat ≤ buffer.length
    ∧ fieldValue buffer entry = pair.2

section Parse

variable {buffer : Bytes} {fieldEntries : List FieldEntry}

theorem parseUsizeFromBuf_decimal {entry : FieldEntry} {n : Nat} (hn : n < 2 ^ 64)
    (h : fieldValue buffer entry = decimal n)
    : parseUsizeFromBuf buffer entry = some (UInt64.ofNat n) := by
  have htoNat : (UInt64.ofNat n).toNat = n := UInt64.toNat_ofNat_of_lt' hn
  have hparse := MessageView.parseU64_decimal (UInt64.ofNat n)
  rw [MessageView.parseU64, htoNat, if_neg (by simp [decimal_ne_nil])] at hparse
  rw [parseUsizeFromBuf, h]
  exact hparse

theorem getElem?_of_drop {idx : Nat} {entry : FieldEntry} {rest : List FieldEntry}
    (h : fieldEntries.drop idx = entry :: rest)
    : fieldEntries[idx]? = some entry := by
  rw [← List.head?_drop, h]
  rfl

theorem split_shows {es : List FieldEntry} {xs ys : List (UInt32 × Bytes)}
    (h : List.Forall₂ (Shows buffer) es (xs ++ ys))
    : ∃ es₁ es₂, es = es₁ ++ es₂ ∧ List.Forall₂ (Shows buffer) es₁ xs
        ∧ List.Forall₂ (Shows buffer) es₂ ys :=
  ⟨_, _, (List.take_append_drop xs.length es).symm, List.forall₂_take_append _ _ _ h,
    List.forall₂_drop_append _ _ _ h⟩

-- The entries of a group end here.
def Ends (d : GroupDef) (rest : List FieldEntry) : Prop :=
  ∀ entry ∈ rest.head?, entry.tag ∉ d.entryTags

def EntryEnds (d : GroupDef) (rest : List FieldEntry) : Prop :=
  ∀ entry ∈ rest.head?, entry.tag = d.delimiterTag ∨ entry.tag ∉ d.entryTags

variable (buffer fieldEntries) in
-- What the three functions get back, each with enough rounds.
structure Parses (fuel : Nat) : Prop where
  instance_ : ∀ {d idx pairs group es rest}, d.WellFormed → Instance d pairs group →
    List.Forall₂ (Shows buffer) es pairs → fieldEntries.drop idx = es ++ rest → Ends d rest →
    2 * (fieldEntries.length - idx) ≤ fuel →
      parseFrom buffer fieldEntries fuel idx d = some (group, idx + es.length)
  entries : ∀ {d idx pairs entries es rest}, d.WellFormed → Entries d pairs entries →
    List.Forall₂ (Shows buffer) es pairs → fieldEntries.drop idx = es ++ rest → Ends d rest →
    2 * (fieldEntries.length - idx) + 1 ≤ fuel →
      parseEntries buffer fieldEntries fuel entries.length idx d = (entries, idx + es.length)
  members : ∀ {d idx pairs entry es rest}, d.WellFormed → Members d pairs entry →
    List.Forall₂ (Shows buffer) es pairs → fieldEntries.drop idx = es ++ rest → EntryEnds d rest →
    2 * (fieldEntries.length - idx) + 1 ≤ fuel →
      parseMembers buffer fieldEntries fuel idx d = (entry, idx + es.length)

theorem Parses.instance_succ (hlength : fieldEntries.length < 2 ^ 64) {fuel : Nat}
    (ih : Parses buffer fieldEntries fuel) {d : GroupDef} {idx : Nat}
    {pairs : List (UInt32 × Bytes)} {group : RepeatingGroup} {es rest : List FieldEntry}
    (hd : d.WellFormed) (hinst : Instance d pairs group)
    (hshows : List.Forall₂ (Shows buffer) es pairs)
    (hdrop : fieldEntries.drop idx = es ++ rest) (hends : Ends d rest)
    (hfuel : 2 * (fieldEntries.length - idx) ≤ fuel + 1)
    : parseFrom buffer fieldEntries (fuel + 1) idx d = some (group, idx + es.length) := by
  cases hinst with
  | @mk _ pairs entries hentries =>
    cases hshows with
    | @cons countEntry _ es _ hcount hshows =>
      obtain ⟨htag, _, hvalue⟩ := hcount
      have hidx := lt_length_of_drop_eq_cons hdrop
      have hcount : entries.length < 2 ^ 64 := by
        have hle := hentries.length_le
        have hes := hshows.length_eq
        have hlen := congrArg List.length hdrop
        simp only [List.length_drop, List.length_append, List.length_cons] at hlen
        omega
      have htoNat : (UInt64.ofNat entries.length).toNat = entries.length :=
        UInt64.toNat_ofNat_of_lt' hcount
      have hih := ih.entries hd hentries hshows (drop_of_drop_eq_cons hdrop) hends (by omega)
      rw [parseFrom, getElem?_of_drop hdrop]
      dsimp only
      rw [if_neg (not_not.mpr htag), parseUsizeFromBuf_decimal hcount hvalue]
      dsimp only
      split
      . next hzero =>
        have hnil : entries.length = 0 := by
          rw [← htoNat, hzero]
          rfl
        rw [List.length_eq_zero_iff] at hnil
        subst hnil
        cases hentries with
        | nil =>
          cases hshows with
          | nil => rfl
      . rw [htoNat, hih]
        dsimp only
        rw [List.length_cons, Nat.add_assoc, Nat.add_comm 1]

theorem Parses.entries_succ {fuel : Nat} (ih : Parses buffer fieldEntries fuel) {d : GroupDef}
    {idx : Nat} {pairs : List (UInt32 × Bytes)} {entries : List (GroupEntry RepeatingGroup)}
    {es rest : List FieldEntry} (hd : d.WellFormed) (hentries : Entries d pairs entries)
    (hshows : List.Forall₂ (Shows buffer) es pairs) (hdrop : fieldEntries.drop idx = es ++ rest)
    (hends : Ends d rest) (hfuel : 2 * (fieldEntries.length - idx) + 1 ≤ fuel + 1)
    : parseEntries buffer fieldEntries (fuel + 1) entries.length idx d
        = (entries, idx + es.length) := by
  cases hentries with
  | nil =>
    cases hshows with
    | nil =>
      rw [List.length_nil, parseEntries]
      rfl
  | @cons _ value members pairs entry entries hmembers hentries =>
    cases hshows with
    | @cons first _ es _ hfirst hshows =>
      obtain ⟨htag, _, hvalue⟩ := hfirst
      have hidx := lt_length_of_drop_eq_cons hdrop
      obtain ⟨es₁, es₂, rfl, hinner, hbehind⟩ := split_shows hshows
      rw [List.cons_append] at hdrop
      have hdrop' : fieldEntries.drop (idx + 1) = es₁ ++ (es₂ ++ rest) := by
        rw [drop_of_drop_eq_cons hdrop, List.append_assoc]
      have hnext : EntryEnds d (es₂ ++ rest) := by
        intro e he
        cases hentries with
        | nil =>
          cases hbehind with
          | nil => exact .inr (hends e he)
        | cons _ _ =>
          cases hbehind with
          | cons hdelimiter _ =>
            injection he with he
            exact .inl (he ▸ hdelimiter.1)
      have hmembersEq := ih.members hd hmembers hinner hdrop' hnext (by omega)
      have hentriesEq := ih.entries hd hentries hbehind (drop_of_drop_eq_append hdrop') hends
        (by omega)
      rw [List.length_cons, parseEntries, getElem?_of_drop hdrop]
      dsimp only
      rw [if_neg (not_not.mpr htag), hmembersEq]
      dsimp only
      rw [hentriesEq]
      dsimp only
      rw [hvalue, htag, List.length_cons, List.length_append, Nat.add_assoc idx 1, Nat.add_assoc idx,
        Nat.add_assoc 1, Nat.add_comm 1]

-- What may stand behind a nested group: a field of the entry, another nested group, or its end.
theorem ends_of_members {d n : GroupDef} {pairs : List (UInt32 × Bytes)}
    {entry : GroupEntry RepeatingGroup} {es rest : List FieldEntry} (hd : d.WellFormed)
    (hn : n ∈ d.nestedGroups) (h : Members d pairs entry)
    (hshows : List.Forall₂ (Shows buffer) es pairs) (hends : EntryEnds d rest)
    : Ends n (es ++ rest) := by
  have hnested {tag : UInt32} (htag : tag ∉ n.tags) : tag ∉ n.entryTags := by
    intro hmem
    apply htag
    rw [tags_eq]
    exact List.mem_cons_of_mem _ hmem
  intro e he
  cases hshows with
  | nil =>
    cases hends e he with
    | inl hdelimiter =>
      rw [hdelimiter]
      exact hnested (hd.not_mem_nested hd.delimiter hn)
    | inr hother => exact fun hmem => hother (mem_entryTags hn (by
        rw [tags_eq]
        exact List.mem_cons_of_mem _ hmem))
  | @cons first pair es pairs hfirst _ =>
    injection he with he
    rw [← he, hfirst.1]
    cases h.head_tag with
    | inl hmember => exact hnested (hd.not_mem_nested hmember hn)
    | inr hcount =>
      obtain ⟨n', hn', hcount⟩ := hcount
      rw [hcount]
      exact hd.countTag_not_mem hn hn'

theorem isMember_iff {d : GroupDef} {tag : UInt32} : d.isMember tag = true ↔ tag ∈ d.memberTags := by
  rw [isMember, List.contains_eq_mem, decide_eq_true_eq]

-- Where an entry ends, no field is taken.
theorem parseMembers_of_entryEnds {d : GroupDef} {idx : Nat} (fuel : Nat)
    (hends : EntryEnds d (fieldEntries.drop idx))
    : parseMembers buffer fieldEntries (fuel + 1) idx d = (⟨[], []⟩, idx) := by
  cases hdrop : fieldEntries.drop idx with
  | nil =>
    have hnone : fieldEntries[idx]? = none := by
      rw [← List.head?_drop, hdrop]
      rfl
    rw [parseMembers, hnone]
  | cons e rest =>
    rw [hdrop] at hends
    rw [parseMembers, getElem?_of_drop hdrop]
    dsimp only
    split
    . rfl
    . next hne =>
      have hother : e.tag ∉ d.entryTags := (hends e rfl).resolve_left hne
      have hmember : ¬ d.isMember e.tag = true := by
        rw [isMember_iff]
        exact fun hmem => hother (List.mem_append_left _ hmem)
      rw [findNested_of_not_mem hother, Option.bind_none]
      dsimp only
      rw [if_neg hmember]

theorem Parses.members_succ {fuel : Nat} (ih : Parses buffer fieldEntries fuel) {d : GroupDef}
    {idx : Nat} {pairs : List (UInt32 × Bytes)} {entry : GroupEntry RepeatingGroup}
    {es rest : List FieldEntry} (hd : d.WellFormed) (hmembers : Members d pairs entry)
    (hshows : List.Forall₂ (Shows buffer) es pairs) (hdrop : fieldEntries.drop idx = es ++ rest)
    (hends : EntryEnds d rest) (hfuel : 2 * (fieldEntries.length - idx) + 1 ≤ fuel + 1)
    : parseMembers buffer fieldEntries (fuel + 1) idx d = (entry, idx + es.length) := by
  cases hmembers with
  | nil =>
    cases hshows with
    | nil =>
      rw [List.nil_append] at hdrop
      rw [← hdrop] at hends
      exact parseMembers_of_entryEnds fuel hends
  | @field _ tag value pairs entry hmember hne hmembers =>
    cases hshows with
    | @cons first _ es _ hfirst hshows =>
      obtain ⟨htag, _, hvalue⟩ := hfirst
      dsimp only at htag hvalue
      have hidx := lt_length_of_drop_eq_cons hdrop
      have hih := ih.members hd hmembers hshows (drop_of_drop_eq_cons hdrop) hends (by omega)
      rw [parseMembers, getElem?_of_drop hdrop]
      dsimp only
      rw [htag, if_neg hne, hd.findNested_of_member hmember, Option.bind_none]
      dsimp only
      rw [if_pos (isMember_iff.mpr hmember), hih, hvalue, List.length_cons, Nat.add_assoc, Nat.add_comm 1]
  | @group _ n inner pairs group entry hn hgroup hmembers =>
    obtain ⟨es₁, es₂, rfl, hinner, hbehind⟩ := split_shows hshows
    rw [List.append_assoc] at hdrop
    have hnested := ih.instance_ (hd.nested hn) hgroup hinner hdrop
      (ends_of_members hd hn hmembers hbehind hends)
    have hdrop' := drop_of_drop_eq_append hdrop
    cases hgroup with
    | @mk _ inner entries hentries =>
      cases hinner with
      | @cons first _ es₁ _ hfirst _ =>
        obtain ⟨htag, _, _⟩ := hfirst
        dsimp only at htag
        rw [List.cons_append] at hdrop
        have hidx := lt_length_of_drop_eq_cons hdrop
        have hne : n.countTag ≠ d.delimiterTag := by
          intro heq
          exact hd.not_mem_nested hd.delimiter hn (heq ▸ n.countTag_mem_tags)
        have hih := ih.members hd hmembers hbehind hdrop' hends (by simp; omega)
        rw [parseMembers, getElem?_of_drop hdrop]
        dsimp only
        rw [htag, if_neg hne, hd.findNested_of_mem hn, Option.bind_some, hnested (by omega)]
        dsimp only
        rw [hih]
        dsimp only
        rw [List.length_append, Nat.add_assoc]

theorem parses (hlength : fieldEntries.length < 2 ^ 64) (fuel : Nat)
    : Parses buffer fieldEntries fuel := by
  induction fuel with
  | zero =>
    constructor
    case instance_ =>
      intro d idx pairs group es rest _ hinst hshows hdrop _ hfuel
      cases hinst with
      | mk _ =>
        cases hshows with
        | cons _ _ =>
          have hidx := lt_length_of_drop_eq_cons hdrop
          omega
    case entries =>
      intro d idx pairs entries es rest _ _ _ _ _ hfuel
      omega
    case members =>
      intro d idx pairs entry es rest _ _ _ _ _ hfuel
      omega
  | succ fuel ih =>
    constructor
    case instance_ =>
      intro d idx pairs group es rest hd hinst hshows hdrop hends hfuel
      exact ih.instance_succ hlength hd hinst hshows hdrop hends hfuel
    case entries =>
      intro d idx pairs entries es rest hd hentries hshows hdrop hends hfuel
      exact ih.entries_succ hd hentries hshows hdrop hends hfuel
    case members =>
      intro d idx pairs entry es rest hd hmembers hshows hdrop hends hfuel
      exact ih.members_succ hd hmembers hshows hdrop hends hfuel

end Parse

-- The number of field entries is a `usize`.
theorem parse_instance (buffer : Bytes) (before es after : List FieldEntry) (d : GroupDef)
    (pairs : List (UInt32 × Bytes)) (group : RepeatingGroup) (hd : d.WellFormed)
    (hinst : Instance d pairs group) (hshows : List.Forall₂ (Shows buffer) es pairs)
    (hafter : ∀ e ∈ after.head?, e.tag ∉ d.tags)
    (hlength : (before ++ (es ++ after)).length < 2 ^ 64)
    : parse buffer (before ++ (es ++ after)) before.length d
        = some (group, before.length + es.length) := by
  have hends : Ends d after := by
    intro e he hmem
    apply hafter e he
    rw [tags_eq]
    exact List.mem_cons_of_mem _ hmem
  exact (parses hlength _).instance_ hd hinst hshows List.drop_left hends (Nat.le_refl _)

-- Two legs between the delimiter and the other field of an entry.
theorem parse_instance_nested
    : parse (ascii "12x") ([⟨35, 2, 1⟩] ++ ([⟨268, 0, 1⟩, ⟨269, 2, 1⟩, ⟨555, 1, 1⟩, ⟨600, 2, 1⟩,
        ⟨600, 2, 1⟩, ⟨624, 2, 1⟩, ⟨270, 2, 1⟩] ++ [⟨10, 2, 1⟩])) 1
        (mdEntriesGroup.withNested legsGroup)
      = some (⟨268, 1, [⟨[(269, ascii "x"), (270, ascii "x")], [⟨555, 2,
          [⟨[(600, ascii "x")], []⟩, ⟨[(600, ascii "x"), (624, ascii "x")], []⟩]⟩]⟩]⟩, 8) := by
  have hwf : (mdEntriesGroup.withNested legsGroup).WellFormed := by
    constructor
    . simp [GroupDef.tags, withNested, mdEntriesGroup, legsGroup, GroupDef.new]
    . apply Delimited.mk
      . decide
      . intro n hn
        rw [List.mem_singleton.mp hn]
        exact .mk (by decide) nofun
  have hlegs : Instance legsGroup
      ((555, decimal 2) :: [(600, ascii "x"), (600, ascii "x"), (624, ascii "x")]) _ :=
    .mk (.cons .nil (.cons (.field (by decide) (by decide) .nil) .nil))
  have hprice : Members (mdEntriesGroup.withNested legsGroup) [(270, ascii "x")] _ :=
    .field (by decide) (by decide) .nil
  have hentries : Instance (mdEntriesGroup.withNested legsGroup)
      ((268, decimal 1) :: ([(269, ascii "x")] ++ _ ++ [])) _ :=
    .mk (.cons (.group (List.mem_singleton_self _) hlegs hprice) .nil)
  have hone : decimal 1 = ascii "1" := decimal_of_lt (by decide)
  have htwo : decimal 2 = ascii "2" := decimal_of_lt (by decide)
  refine parse_instance (ascii "12x") [_] _ [_] _ _ _ hwf hentries ?_ ?_ (by decide)
  . simp [Shows, hone, htwo, fieldValue]
    decide
  . simp [GroupDef.tags, withNested, mdEntriesGroup, legsGroup, GroupDef.new]

end RepeatingGroup

end Velocitas
