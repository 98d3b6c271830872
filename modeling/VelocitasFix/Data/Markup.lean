import VelocitasFix.Data.Ascii
import VelocitasFix.Data.Search

/-!
This module contains text with tags in angle brackets: the tags and their attributes, the layout of a
list of tags, and what a search for a tag, or for an attribute of one, finds in it.
-/

namespace Markup

open Search

structure Attr where
  name : Bytes
  value : Bytes
  deriving DecidableEq, Repr

inductive Tag where
  | opening (name : Bytes) (attrs : List Attr)
  | empty (name : Bytes) (attrs : List Attr)
  | closing (name : Bytes)
  deriving DecidableEq, Repr

-- None of the bytes of ` "/<=>`.
def IsName (bs : Bytes) : Prop := bs ≠ [] ∧ ∀ b ∈ bs, b ∉ ([32, 34, 47, 60, 61, 62] : Bytes)

-- None of the bytes of `"<=>`.
def IsValue (bs : Bytes) : Prop := ∀ b ∈ bs, b ∉ ([34, 60, 61, 62] : Bytes)

instance : DecidablePred IsName :=
  fun bs => @instDecidableAnd _ _ _ (List.decidableBAll _ bs)

instance : DecidablePred IsValue :=
  fun bs => List.decidableBAll _ bs

theorem IsName.not_mem {bs : Bytes} (h : IsName bs) {b : UInt8}
    (hb : b ∈ ([32, 34, 47, 60, 61, 62] : Bytes))
    : b ∉ bs :=
  fun hmem => h.2 b hmem hb

theorem IsValue.not_mem {bs : Bytes} (h : IsValue bs) {b : UInt8}
    (hb : b ∈ ([34, 60, 61, 62] : Bytes))
    : b ∉ bs :=
  fun hmem => h b hmem hb

namespace Attr

def WellFormed (a : Attr) : Prop := IsName a.name ∧ IsValue a.value

instance : DecidablePred WellFormed :=
  fun _ => inferInstanceAs (Decidable (_ ∧ _))

theorem wellFormed_mk {name value : Bytes} (hname : IsName name) (hvalue : IsValue value)
    : WellFormed ⟨name, value⟩ :=
  ⟨hname, hvalue⟩

def render (a : Attr) : Bytes := 32 :: (a.name ++ 61 :: 34 :: (a.value ++ [34]))

end Attr

def renderAttrs (attrs : List Attr) : Bytes := attrs.flatMap Attr.render

theorem not_mem_renderAttrs {attrs : List Attr} (h : ∀ a ∈ attrs, a.WellFormed) {b : UInt8}
    (hb : b = 60 ∨ b = 62)
    : b ∉ renderAttrs attrs := by
  unfold renderAttrs
  rw [List.mem_flatMap]
  rintro ⟨a, ha, hmem⟩
  have hname : b ∉ a.name := (h a ha).1.not_mem (by cases hb <;> simp [*])
  have hvalue : b ∉ a.value := (h a ha).2.not_mem (by cases hb <;> simp [*])
  unfold Attr.render at hmem
  cases hb with
  | inl hb => simp [hb ▸ hname, hb ▸ hvalue, hb] at hmem
  | inr hb => simp [hb ▸ hname, hb ▸ hvalue, hb] at hmem

namespace Tag

def name : Tag → Bytes
  | .opening name _ => name
  | .empty name _ => name
  | .closing name => name

def attrs : Tag → List Attr
  | .opening _ attrs => attrs
  | .empty _ attrs => attrs
  | .closing _ => []

def WellFormed (t : Tag) : Prop := IsName t.name ∧ ∀ a ∈ t.attrs, a.WellFormed

instance : DecidablePred WellFormed :=
  fun _ => inferInstanceAs (Decidable (_ ∧ _))

-- The text of the tag up to the bracket that ends it.
def head : Tag → Bytes
  | .opening name attrs => 60 :: (name ++ renderAttrs attrs)
  | .empty name attrs => 60 :: (name ++ renderAttrs attrs ++ [47])
  | .closing name => 60 :: 47 :: name

def render (t : Tag) : Bytes := t.head ++ [62]

theorem WellFormed.not_mem_head {t : Tag} (h : t.WellFormed) : 62 ∉ t.head := by
  have hname : (62 : UInt8) ∉ t.name := h.1.not_mem (by simp)
  have hattrs : (62 : UInt8) ∉ renderAttrs t.attrs := not_mem_renderAttrs h.2 (.inr rfl)
  cases t with
  | opening name attrs =>
    simp only [Tag.name, Tag.attrs] at hname hattrs
    simp [head, hname, hattrs]
  | empty name attrs =>
    simp only [Tag.name, Tag.attrs] at hname hattrs
    simp [head, hname, hattrs]
  | closing name =>
    simp only [Tag.name] at hname
    simp [head, hname]

theorem WellFormed.not_mem_tail_render {t : Tag} (h : t.WellFormed) : 60 ∉ t.render.tail := by
  have hname : (60 : UInt8) ∉ t.name := h.1.not_mem (by simp)
  have hattrs : (60 : UInt8) ∉ renderAttrs t.attrs := not_mem_renderAttrs h.2 (.inl rfl)
  cases t with
  | opening name attrs =>
    simp only [Tag.name, Tag.attrs] at hname hattrs
    simp [render, head, hname, hattrs]
  | empty name attrs =>
    simp only [Tag.name, Tag.attrs] at hname hattrs
    simp [render, head, hname, hattrs]
  | closing name =>
    simp only [Tag.name] at hname
    simp [render, head, hname]

theorem find_bracket {t : Tag} (h : t.WellFormed) (rest : Bytes)
    : find [62] (t.render ++ rest) = some t.head.length := by
  rw [render, List.append_assoc]
  exact find_singleton h.not_mem_head rest

theorem length_render (t : Tag) : t.render.length = t.head.length + 1 := by
  rw [render, List.length_append, List.length_singleton]

theorem find_slash_empty {name : Bytes} {attrs : List Attr} (h : (empty name attrs).WellFormed)
    (rest : Bytes)
    : ∃ e, find [47, 62] ((empty name attrs).render ++ rest) = some e
        ∧ (empty name attrs).render.length = e + 2 := by
  have hhead := h.not_mem_head
  have hsplit : (empty name attrs).head = (60 :: (name ++ renderAttrs attrs)) ++ [47] := rfl
  rw [hsplit, List.mem_append, not_or] at hhead
  refine ⟨(60 :: (name ++ renderAttrs attrs)).length, ?_, ?_⟩
  . rw [render, hsplit, List.append_assoc, List.append_assoc]
    exact find_mark hhead.1 hhead.2 rest
  . rw [length_render, hsplit, List.length_append]
    rfl

-- A tag that is not an empty one holds no `/>`.
theorem find_slash_opening {name : Bytes} {attrs : List Attr} (h : (opening name attrs).WellFormed)
    (rest : Bytes)
    : find [47, 62] ((opening name attrs).render ++ rest)
        = (find [47, 62] rest).map (· + (opening name attrs).render.length) := by
  have hend : ¬ [47] <:+ (opening name attrs).head := by
    change ¬ [47] <:+ 60 :: (name ++ renderAttrs attrs)
    cases List.eq_nil_or_concat' attrs with
    | inl hnil =>
      rw [hnil, renderAttrs, List.flatMap_nil, List.append_nil, List.suffix_cons_iff]
      rintro (heq | hsuffix)
      . exact nomatch heq
      . exact h.1.not_mem (by simp) (hsuffix.subset List.mem_cons_self)
    | inr hconcat =>
      obtain ⟨as, a, hconcat⟩ := hconcat
      have hquote : 60 :: (name ++ renderAttrs attrs)
          = 60 :: (name ++ (renderAttrs as ++ 32 :: (a.name ++ 61 :: 34 :: a.value))) ++ [34] := by
        simp [hconcat, renderAttrs, Attr.render]
      rw [hquote]
      rintro ⟨s, hs⟩
      exact nomatch (List.append_inj' hs rfl).2
  have hslash : (62 : UInt8) ∉ ([47] : Bytes) := by simp
  rw [render, List.append_assoc, List.length_append]
  exact find_append_mark h.not_mem_head hslash (fun _ => hend) rest

end Tag

-- What is searched for: the beginning of a tag with attributes, or a whole tag without any.
inductive Mark where
  | start (name : Bytes)
  | opening (name : Bytes)
  | closing (name : Bytes)
  deriving DecidableEq, Repr

namespace Mark

def name : Mark → Bytes
  | .start name => name
  | .opening name => name
  | .closing name => name

def render : Mark → Bytes
  | .start name => 60 :: (name ++ [32])
  | .opening name => 60 :: (name ++ [62])
  | .closing name => 60 :: 47 :: (name ++ [62])

-- Whether the tag is one that the search stops at.
def marks : Mark → Tag → Bool
  | .start name, .opening name' attrs => name = name' && !attrs.isEmpty
  | .start name, .empty name' attrs => name = name' && !attrs.isEmpty
  | .opening name, .opening name' attrs => name = name' && attrs.isEmpty
  | .closing name, .closing name' => name = name'
  | _, _ => false

theorem marks_of_name_ne {m : Mark} {t : Tag} (h : m.name ≠ t.name) : m.marks t = false := by
  cases m with
  | start name => cases t <;> simp_all [marks, Mark.name, Tag.name]
  | opening name => cases t <;> simp_all [marks, Mark.name, Tag.name]
  | closing name => cases t <;> simp_all [marks, Mark.name, Tag.name]

section Prefix

variable {name name' : Bytes} {c d : UInt8} {ys : Bytes}

theorem word_prefix_iff (h : IsName name) (h' : IsName name') (hc : c ∈ ([32, 62] : Bytes))
    (hd : d ∈ ([32, 47, 62] : Bytes))
    : name ++ [c] <+: name' ++ d :: ys ↔ name = name' ∧ c = d := by
  have hc' : c ∈ ([32, 34, 47, 60, 61, 62] : Bytes) := by
    simp only [List.mem_cons] at hc ⊢
    tauto
  have hd' : d ∈ ([32, 34, 47, 60, 61, 62] : Bytes) := by
    simp only [List.mem_cons] at hd ⊢
    tauto
  rw [prefix_mark_iff (h'.not_mem hc') (h.not_mem hd')]
  simp

-- A name does not begin with a slash.
theorem exists_cons_of_isName (h : IsName name) : ∃ x xs, name = x :: xs ∧ x ≠ 47 := by
  cases hcons : name with
  | nil => exact absurd hcons h.1
  | cons x xs =>
    refine ⟨x, xs, rfl, ?_⟩
    intro heq
    apply h.not_mem (b := 47) (by simp)
    rw [hcons, heq]
    exact List.mem_cons_self

theorem not_slash_prefix_append (h : IsName name) (zs : Bytes) : ¬ 47 :: ys <+: name ++ zs := by
  obtain ⟨x, xs, rfl, hne⟩ := exists_cons_of_isName h
  rw [List.cons_append, List.cons_prefix_cons]
  rintro ⟨heq, _⟩
  exact hne heq.symm

theorem not_prefix_slash (h : IsName name) (zs : Bytes) : ¬ name ++ zs <+: 47 :: ys := by
  obtain ⟨x, xs, rfl, hne⟩ := exists_cons_of_isName h
  rw [List.cons_append, List.cons_prefix_cons]
  rintro ⟨heq, _⟩
  exact hne heq

theorem prefix_named_iff {m : Mark} (hm : IsName m.name) (h : IsName name)
    (hd : d ∈ ([32, 47, 62] : Bytes))
    : m.render <+: 60 :: (name ++ d :: ys)
        ↔ (m = .start name ∧ d = 32) ∨ (m = .opening name ∧ d = 62) := by
  cases m with
  | start name' =>
    replace hm : IsName name' := hm
    rw [render, List.cons_prefix_cons, word_prefix_iff hm h (by simp) hd]
    simp [eq_comm]
  | opening name' =>
    replace hm : IsName name' := hm
    rw [render, List.cons_prefix_cons, word_prefix_iff hm h (by simp) hd]
    simp [eq_comm]
  | closing name' =>
    rw [render, List.cons_prefix_cons]
    simp [not_slash_prefix_append h]

theorem prefix_closing_iff {m : Mark} (hm : IsName m.name) (h : IsName name)
    : m.render <+: 60 :: 47 :: (name ++ 62 :: ys) ↔ m = .closing name := by
  cases m with
  | start name' =>
    replace hm : IsName name' := hm
    rw [render, List.cons_prefix_cons]
    simp [not_prefix_slash hm]
  | opening name' =>
    replace hm : IsName name' := hm
    rw [render, List.cons_prefix_cons]
    simp [not_prefix_slash hm]
  | closing name' =>
    replace hm : IsName name' := hm
    rw [render, List.cons_prefix_cons, List.cons_prefix_cons,
      word_prefix_iff hm h (by simp) (by simp)]
    simp

end Prefix

theorem render_prefix_iff {m : Mark} {t : Tag} (hm : IsName m.name) (ht : t.WellFormed)
    (rest : Bytes)
    : m.render <+: t.render ++ rest ↔ m.marks t = true := by
  cases t with
  | opening name attrs =>
    have hname : IsName name := ht.1
    cases attrs with
    | nil =>
      have hrender : (Tag.opening name []).render ++ rest = 60 :: (name ++ 62 :: rest) := by
        simp [Tag.render, Tag.head, renderAttrs]
      rw [hrender, prefix_named_iff hm hname (by simp)]
      cases m <;> simp [marks]
    | cons a as =>
      have hrender : (Tag.opening name (a :: as)).render ++ rest
          = 60 :: (name ++ 32 :: (a.render.tail ++ renderAttrs as ++ 62 :: rest)) := by
        simp [Tag.render, Tag.head, renderAttrs, Attr.render]
      rw [hrender, prefix_named_iff hm hname (by simp)]
      cases m <;> simp [marks]
  | empty name attrs =>
    have hname : IsName name := ht.1
    cases attrs with
    | nil =>
      have hrender : (Tag.empty name []).render ++ rest = 60 :: (name ++ 47 :: 62 :: rest) := by
        simp [Tag.render, Tag.head, renderAttrs]
      rw [hrender, prefix_named_iff hm hname (by simp)]
      cases m <;> simp [marks]
    | cons a as =>
      have hrender : (Tag.empty name (a :: as)).render ++ rest
          = 60 :: (name ++ 32 :: (a.render.tail ++ renderAttrs as ++ 47 :: 62 :: rest)) := by
        simp [Tag.render, Tag.head, renderAttrs, Attr.render]
      rw [hrender, prefix_named_iff hm hname (by simp)]
      cases m <;> simp [marks]
  | closing name =>
    have hname : IsName name := ht.1
    have hrender : (Tag.closing name).render ++ rest = 60 :: 47 :: (name ++ 62 :: rest) := by
      simp [Tag.render, Tag.head]
    rw [hrender, prefix_closing_iff hm hname]
    cases m <;> simp [marks]

theorem find_self {m : Mark} {t : Tag} (hm : IsName m.name) (ht : t.WellFormed)
    (h : m.marks t = true) (rest : Bytes)
    : find m.render (t.render ++ rest) = some 0 :=
  find_eq_zero ((render_prefix_iff hm ht rest).mpr h)

theorem exists_cons_render (m : Mark) : ∃ pat, m.render = 60 :: pat := by
  cases m with
  | start name => exact ⟨_, rfl⟩
  | opening name => exact ⟨_, rfl⟩
  | closing name => exact ⟨_, rfl⟩

theorem find_gap {gap : Bytes} (m : Mark) (h : 60 ∉ gap) (rest : Bytes)
    : find m.render (gap ++ rest) = (find m.render rest).map (· + gap.length) := by
  obtain ⟨pat, hpat⟩ := m.exists_cons_render
  rw [hpat, find_append_of_not_mem h]

theorem find_other {m : Mark} {t : Tag} (hm : IsName m.name) (ht : t.WellFormed)
    (h : m.marks t = false) (rest : Bytes)
    : find m.render (t.render ++ rest) = (find m.render rest).map (· + t.render.length) := by
  obtain ⟨pat, hpat⟩ := m.exists_cons_render
  apply find_append
  intro s u hsu hu hpre
  cases s with
  | nil =>
    rw [List.nil_append] at hsu
    rw [← hsu, render_prefix_iff hm ht, h] at hpre
    contradiction
  | cons x s =>
    -- behind its first byte the tag holds no bracket that opens one
    have hopen := ht.not_mem_tail_render
    rw [hsu] at hopen
    cases u with
    | nil => exact hu rfl
    | cons y u =>
      rw [hpat, List.cons_append, List.cons_prefix_cons] at hpre
      apply hopen
      rw [hpre.1]
      simp

end Mark

-- The same tag, with its attributes in another order.
inductive Tag.Reorders : Tag → Tag → Prop where
  | opening {name : Bytes} {attrs attrs' : List Attr} (h : attrs'.Perm attrs)
    : Reorders (.opening name attrs) (.opening name attrs')
  | empty {name : Bytes} {attrs attrs' : List Attr} (h : attrs'.Perm attrs)
    : Reorders (.empty name attrs) (.empty name attrs')
  | closing {name : Bytes} : Reorders (.closing name) (.closing name)

-- A text with these tags, in this order. Any text without a tag may stand around each of them.
inductive Spaced : List Tag → Bytes → Prop where
  | nil {gap : Bytes} (h : 60 ∉ gap) : Spaced [] gap
  | cons {gap text : Bytes} {t t' : Tag} {tags : List Tag} (h : 60 ∉ gap) (ht : t.Reorders t')
    (hs : Spaced tags text)
    : Spaced (t :: tags) (gap ++ (t'.render ++ text))

section Reorders

variable {t t' : Tag}

theorem Tag.Reorders.refl (t : Tag) : t.Reorders t := by
  cases t with
  | opening name attrs => exact .opening (.refl _)
  | empty name attrs => exact .empty (.refl _)
  | closing name => exact .closing

theorem Tag.Reorders.wellFormed (h : t.Reorders t') (ht : t.WellFormed) : t'.WellFormed := by
  cases h with
  | opening h => exact ⟨ht.1, fun a ha => ht.2 a (h.mem_iff.mp ha)⟩
  | empty h => exact ⟨ht.1, fun a ha => ht.2 a (h.mem_iff.mp ha)⟩
  | closing => exact ht

theorem Tag.Reorders.marks_eq (h : t.Reorders t') (m : Mark) : m.marks t' = m.marks t := by
  have hempty {attrs attrs' : List Attr} (h : attrs'.Perm attrs)
      : attrs'.isEmpty = attrs.isEmpty := by
    rw [Bool.eq_iff_iff, List.isEmpty_iff, List.isEmpty_iff]
    exact ⟨fun hnil => (hnil ▸ h).nil_eq.symm, fun hnil => (hnil ▸ h).eq_nil⟩
  cases h with
  | opening h => cases m <;> simp [Mark.marks, hempty h]
  | empty h => cases m <;> simp [Mark.marks, hempty h]
  | closing => rfl

end Reorders

-- The text with these tags that has the same gap around each of them.
def document (gap : Bytes) (tags : List Tag) : Bytes :=
  gap ++ tags.flatMap fun t => t.render ++ gap

theorem spaced_document {gap : Bytes} (h : 60 ∉ gap) (tags : List Tag)
    : Spaced tags (document gap tags) := by
  unfold document
  induction tags with
  | nil => exact .nil (by simpa using h)
  | cons t tags ih =>
    rw [List.flatMap_cons, List.append_assoc]
    exact .cons h (.refl t) ih

section Spaced

variable {m : Mark} {tags pre post : List Tag} {t : Tag} {text : Bytes}

theorem Spaced.cons_render {t' : Tag} (ht : t.Reorders t') (h : Spaced tags text)
    : Spaced (t :: tags) (t'.render ++ text) := by
  have hgap : (60 : UInt8) ∉ ([] : Bytes) := List.not_mem_nil
  exact .cons hgap ht h

-- A search passes over the tags that it is not for.
theorem Spaced.find_append (h : Spaced tags text) (hm : IsName m.name)
    (htags : ∀ t ∈ tags, t.WellFormed) (hother : ∀ t ∈ tags, m.marks t = false) (rest : Bytes)
    : find m.render (text ++ rest) = (find m.render rest).map (· + text.length) := by
  induction h with
  | nil hgap => exact m.find_gap hgap rest
  | @cons gap text t t' tags hgap ht _ ih =>
    rw [List.forall_mem_cons] at htags hother
    have hother' : m.marks t' = false := (ht.marks_eq m).trans hother.1
    rw [List.append_assoc, m.find_gap hgap, List.append_assoc,
      Mark.find_other hm (ht.wellFormed htags.1) hother', ih htags.2 hother.2, Option.map_map,
      Option.map_map]
    congr 1
    funext n
    simp only [Function.comp_apply, List.length_append]
    omega

theorem Spaced.find_eq_none (h : Spaced tags text) (hm : IsName m.name)
    (htags : ∀ t ∈ tags, t.WellFormed) (hother : ∀ t ∈ tags, m.marks t = false)
    : find m.render text = none := by
  have hskip := h.find_append hm htags hother []
  obtain ⟨pat, hpat⟩ := m.exists_cons_render
  rw [List.append_nil, hpat, find, if_neg (List.cons_ne_nil _ _), Option.map_none, ← hpat] at hskip
  exact hskip

theorem Spaced.split (h : Spaced (pre ++ t :: post) text)
    : ∃ front t' rest, text = front ++ (t'.render ++ rest) ∧ Spaced pre front ∧ t.Reorders t'
        ∧ Spaced post rest := by
  induction pre generalizing text with
  | nil =>
    cases h with
    | cons hgap ht hs => exact ⟨_, _, _, rfl, .nil hgap, ht, hs⟩
  | cons u pre ih =>
    cases h with
    | @cons gap text _ u' _ hgap hu hs =>
      obtain ⟨front, t', rest, htext, hfront, ht, hrest⟩ := ih hs
      refine ⟨gap ++ (u'.render ++ front), t', rest, ?_, .cons hgap hu hfront, ht, hrest⟩
      rw [htext, List.append_assoc, List.append_assoc]

theorem Spaced.length_pos (h : Spaced (pre ++ t :: post) text) : 0 < text.length := by
  obtain ⟨front, t', rest, htext, _⟩ := h.split
  rw [htext, List.length_append, List.length_append, Tag.length_render]
  omega

-- Where a search stops, and what is in front of it and behind.
theorem Spaced.exists_find (h : Spaced (pre ++ t :: post) text) (hm : IsName m.name)
    (htags : ∀ u ∈ pre ++ t :: post, u.WellFormed) (hpre : ∀ u ∈ pre, m.marks u = false)
    (ht : m.marks t = true)
    : ∃ i t' rest, find m.render text = some i ∧ Spaced pre (text.take i)
        ∧ text.drop i = t'.render ++ rest ∧ t.Reorders t' ∧ Spaced post rest := by
  obtain ⟨front, t', rest, htext, hfront, hreorders, hrest⟩ := h.split
  rw [List.forall_mem_append, List.forall_mem_cons] at htags
  have ht' : m.marks t' = true := (hreorders.marks_eq m).trans ht
  refine ⟨front.length, t', rest, ?_, ?_, ?_, hreorders, hrest⟩
  . rw [htext, hfront.find_append hm htags.1 hpre,
      Mark.find_self hm (hreorders.wellFormed htags.2.1) ht']
    simp
  . rw [htext, List.take_left]
    exact hfront
  . rw [htext, List.drop_left]

theorem Spaced.find_empty {name : Bytes} {attrs : List Attr}
    (h : Spaced (pre ++ .empty name attrs :: post) text)
    (htags : ∀ u ∈ pre ++ .empty name attrs :: post, u.WellFormed)
    (hpre : ∀ u ∈ pre, (Mark.start name).marks u = false) (hattrs : attrs ≠ [])
    : ∃ i e t', find (Mark.start name).render text = some i
        ∧ find [47, 62] (text.drop i) = some e ∧ find [62] (text.drop i) = some (e + 1)
        ∧ (text.drop i).take (e + 2) = t'.render ∧ (Tag.empty name attrs).Reorders t'
        ∧ Spaced post ((text.drop i).drop (e + 2))
        ∧ ((text.drop i).drop (e + 2)).length < text.length := by
  have ht : (Tag.empty name attrs).WellFormed := htags _ (by simp)
  obtain ⟨i, t', rest, hfind, _, hdrop, hreorders, hrest⟩ :=
    h.exists_find (m := .start name) ht.1 htags hpre (by simp [Mark.marks, hattrs])
  have ht' := hreorders.wellFormed ht
  cases hreorders with
  | @empty _ _ attrs' hperm =>
    obtain ⟨e, hend, hlen⟩ := Tag.find_slash_empty ht' rest
    refine ⟨i, e, _, hfind, ?_, ?_, ?_, .empty hperm, ?_, ?_⟩
    . rw [hdrop, hend]
    . rw [Tag.length_render] at hlen
      rw [hdrop, Tag.find_bracket ht', Nat.succ.inj hlen]
    . rw [hdrop, List.take_left' hlen]
    . rw [hdrop, List.drop_left' hlen]
      exact hrest
    . have hlength := congrArg List.length hdrop
      rw [List.length_drop, List.length_append] at hlength
      rw [hdrop, List.drop_left' hlen]
      omega

-- A tag, what is behind it, and where the closing tag of a name is.
theorem Spaced.exists_element {name : Bytes} {inner : List Tag}
    (h : Spaced (pre ++ t :: (inner ++ .closing name :: post)) text) (hm : IsName m.name)
    (htags : ∀ u ∈ pre ++ t :: (inner ++ .closing name :: post), u.WellFormed)
    (hpre : ∀ u ∈ pre, m.marks u = false) (ht : m.marks t = true)
    (hclosing : ∀ u ∈ t :: inner, (Mark.closing name).marks u = false)
    : ∃ i j t' rest, Search.find m.render text = some i ∧ text.drop i = t'.render ++ rest
        ∧ t.Reorders t'
        ∧ Search.find (Mark.closing name).render (t'.render ++ rest) = some (t'.render.length + j)
        ∧ Spaced inner (rest.take j)
        ∧ Spaced post (rest.drop (j + (Mark.closing name).render.length))
        ∧ rest.length < text.length := by
  obtain ⟨i, t', rest, hfind, _, hdrop, hreorders, hrest⟩ := h.exists_find hm htags hpre ht
  rw [List.forall_mem_append, List.forall_mem_cons] at htags
  rw [List.forall_mem_cons] at hclosing
  have hname : IsName name := (htags.2.2 (.closing name) (by simp)).1
  obtain ⟨j, c, rest', hclose, hinner, hdrop', hc, hpost⟩ :=
    hrest.exists_find (m := .closing name) hname htags.2.2 hclosing.2 (by simp [Mark.marks])
  have hother : (Mark.closing name).marks t' = false := (hreorders.marks_eq _).trans hclosing.1
  refine ⟨i, j, t', rest, hfind, hdrop, hreorders, ?_, hinner, ?_, ?_⟩
  . rw [Mark.find_other (m := .closing name) hname (hreorders.wellFormed htags.2.1) hother, hclose,
      Option.map_some, Nat.add_comm]
  . cases hc with
    | closing =>
      have hlen : (Tag.closing name).render.length = (Mark.closing name).render.length := by
        simp [Tag.render, Tag.head, Mark.render]
      rw [← List.drop_drop, hdrop', ← hlen, List.drop_left]
      exact hpost
  . have hlength := congrArg List.length hdrop
    rw [List.length_drop, List.length_append, Tag.length_render] at hlength
    omega

-- The first element of this name holds exactly these tags.
def Encloses (tags : List Tag) (name : Bytes) (inner : List Tag) : Prop :=
  (∃ pre post, tags = pre ++ .opening name [] :: (inner ++ .closing name :: post)
    ∧ ∀ t ∈ pre, (Mark.opening name).marks t = false)
  ∧ ∀ t ∈ inner, (Mark.closing name).marks t = false

theorem Encloses.subset {name : Bytes} {inner : List Tag} (h : Encloses tags name inner)
    : Tag.opening name [] :: inner ⊆ tags := by
  obtain ⟨⟨pre, post, hsplit, _⟩, _⟩ := h
  rw [hsplit, ← List.cons_append]
  exact List.subset_append_of_subset_right pre (List.subset_append_left _ _)

theorem Spaced.exists_section {name : Bytes} {inner : List Tag} (h : Spaced tags text)
    (htags : ∀ t ∈ tags, t.WellFormed) (hinner : Encloses tags name inner)
    : ∃ i e, Search.find (Mark.opening name).render text = some i
        ∧ Search.find (Mark.closing name).render (text.drop i) = some e
        ∧ Spaced (.opening name [] :: inner) ((text.drop i).take e) := by
  obtain ⟨⟨pre, post, hsplit, hpre⟩, hclosing⟩ := hinner
  rw [hsplit] at h htags
  have hname : IsName name := (htags (.opening name []) (by simp)).1
  obtain ⟨i, j, t', rest, hfind, hdrop, hreorders, hclose, hspaced, _, _⟩ :=
    h.exists_element (m := .opening name) hname htags hpre (by simp [Mark.marks])
      (by rw [List.forall_mem_cons]; exact ⟨rfl, hclosing⟩)
  refine ⟨i, _, hfind, by rw [hdrop, hclose], ?_⟩
  rw [hdrop, List.take_length_add_append]
  exact .cons_render hreorders hspaced

end Spaced

section Attributes

variable {key : Bytes}

theorem suffix_name_iff (hkey : IsName key) (pre name : Bytes)
    : key <:+ pre ++ 32 :: name ↔ key <:+ name := by
  have hspace : (32 : UInt8) ∉ key := hkey.not_mem (by simp)
  constructor
  . intro h
    cases List.suffix_or_suffix_of_suffix h (List.suffix_append pre (32 :: name)) with
    | inl h =>
      cases List.suffix_cons_iff.mp h with
      | inl heq => exact absurd (heq ▸ List.mem_cons_self) hspace
      | inr h => exact h
    | inr h => exact absurd (h.subset List.mem_cons_self) hspace
  . intro h
    exact h.trans ((List.suffix_cons 32 name).trans (List.suffix_append pre _))

theorem find_key_self (hkey : IsName key) {pre name : Bytes} (hname : key <:+ name)
    (hfront : 61 ∉ pre ++ 32 :: name) (behind : Bytes)
    : ∃ i, find (key ++ [61, 34]) ((pre ++ 32 :: name) ++ 61 :: 34 :: behind) = some i
        ∧ ((pre ++ 32 :: name) ++ 61 :: 34 :: behind).drop (i + (key.length + 2)) = behind := by
  have hequals : (61 : UInt8) ∉ key := hkey.not_mem (by simp)
  obtain ⟨front, hkeyed⟩ := (suffix_name_iff hkey pre name).mpr hname
  rw [← hkeyed, List.mem_append, not_or] at hfront
  have hfind := find_mark (p := [34]) hfront.1 hequals behind
  have hsplit : front ++ (key ++ 61 :: ([34] ++ behind))
      = (front ++ (key ++ [61, 34])) ++ behind := by
    simp
  refine ⟨front.length, ?_, ?_⟩
  . rw [← hkeyed, List.append_assoc]
    exact hfind
  . rw [← hkeyed, List.append_assoc]
    change (front ++ (key ++ 61 :: ([34] ++ behind))).drop _ = _
    have hlen : front.length + (key.length + 2) = (front ++ (key ++ [61, 34])).length := by simp
    rw [hsplit, hlen, List.drop_left]

-- The search passes over an attribute whose name does not end with the key.
theorem find_key_next (hkey : IsName key) {pre name value : Bytes} (hname : ¬ key <:+ name)
    (hfront : 61 ∉ pre ++ 32 :: name) (hvalue : 61 ∉ value) {behind : Bytes} {i : Nat}
    (hfind : find (key ++ [61, 34]) behind = some i)
    : ∃ j, find (key ++ [61, 34]) ((pre ++ 32 :: name) ++ 61 :: 34 :: (value ++ 34 :: behind))
          = some j
        ∧ ((pre ++ 32 :: name) ++ 61 :: 34 :: (value ++ 34 :: behind)).drop (j + (key.length + 2))
          = behind.drop (i + (key.length + 2)) := by
  have hequals : (61 : UInt8) ∉ key := hkey.not_mem (by simp)
  have hquote : (34 : UInt8) ∉ key := hkey.not_mem (by simp)
  have hnil : (61 : UInt8) ∉ ([] : Bytes) := List.not_mem_nil
  have hname' := find_append_mark (p := [34]) hfront hequals
    (fun _ => mt (suffix_name_iff hkey pre name).mp hname) (34 :: (value ++ 34 :: behind))
  have hopen := find_append_mark (p := [34]) hnil hquote (by simp) (value ++ 34 :: behind)
  have hvalue' := find_append_mark (p := [34]) hvalue hquote (by simp) behind
  rw [List.nil_append, hvalue', hfind] at hopen
  rw [hopen] at hname'
  refine ⟨_, hname', ?_⟩
  have hsplit : (pre ++ 32 :: name) ++ 61 :: 34 :: (value ++ 34 :: behind)
      = ((pre ++ 32 :: name) ++ 61 :: 34 :: (value ++ [34])) ++ behind := by
    simp
  have hlen : i + (value.length + 1) + (([] : Bytes).length + 1)
        + ((pre ++ 32 :: name).length + 1) + (key.length + 2)
      = ((pre ++ 32 :: name) ++ 61 :: 34 :: (value ++ [34])).length
        + (i + (key.length + 2)) := by
    simp
    omega
  rw [hsplit, hlen, ← List.drop_drop, List.drop_left]

-- A search for a key stops at the first attribute whose name ends with it.
theorem find_key (hkey : IsName key) {attrs : List Attr} (h : ∀ a ∈ attrs, a.WellFormed)
    {a : Attr} (ha : attrs.find? (key <:+ ·.name) = some a) {pre : Bytes} (hpre : 61 ∉ pre)
    (tail : Bytes)
    : ∃ i rest, find (key ++ [61, 34]) (pre ++ (renderAttrs attrs ++ tail)) = some i
        ∧ (pre ++ (renderAttrs attrs ++ tail)).drop (i + (key.length + 2))
          = a.value ++ 34 :: rest := by
  induction attrs generalizing pre with
  | nil => contradiction
  | cons b attrs ih =>
    rw [List.forall_mem_cons] at h
    have hname : (61 : UInt8) ∉ b.name := h.1.1.not_mem (by simp)
    have hvalue : (61 : UInt8) ∉ b.value := h.1.2.not_mem (by simp)
    have hfront : (61 : UInt8) ∉ pre ++ 32 :: b.name := by simp [hpre, hname]
    generalize hbehind : renderAttrs attrs ++ tail = behind at ih
    have hrender : pre ++ (renderAttrs (b :: attrs) ++ tail)
        = (pre ++ 32 :: b.name) ++ 61 :: 34 :: (b.value ++ 34 :: behind) := by
      simp [renderAttrs, Attr.render, ← hbehind]
    rw [hrender]
    by_cases hb : key <:+ b.name
    . rw [List.find?_cons_of_pos (by simpa using hb)] at ha
      injection ha with ha
      obtain ⟨i, hfind, hdrop⟩ := find_key_self hkey hb hfront (b.value ++ 34 :: behind)
      exact ⟨i, behind, hfind, ha ▸ hdrop⟩
    . rw [List.find?_cons_of_neg (by simpa using hb)] at ha
      obtain ⟨i, rest, hfind, hdrop⟩ := ih h.2 ha List.not_mem_nil
      rw [List.nil_append] at hfind hdrop
      obtain ⟨j, hfind', hdrop'⟩ := find_key_next hkey hb hfront hvalue hfind
      exact ⟨j, rest, hfind', hdrop'.trans hdrop⟩

-- The only attribute of a tag whose name ends with a key, whatever the order of the attributes is.
theorem Tag.Reorders.find_key {t t' : Tag} (h : t.Reorders t') (ht : t.WellFormed)
    (hkey : IsName key) {a : Attr} (ha : t.attrs.filter (key <:+ ·.name) = [a])
    : ∃ i rest, find (key ++ [61, 34]) t'.render = some i
        ∧ t'.render.drop (i + (key.length + 2)) = a.value ++ 34 :: rest := by
  have hwf := h.wellFormed ht
  have hname : (61 : UInt8) ∉ t'.name := hwf.1.not_mem (by simp)
  have hfind {attrs attrs' : List Attr} (hperm : attrs'.Perm attrs)
      (ha : attrs.filter (key <:+ ·.name) = [a])
      : attrs'.find? (key <:+ ·.name) = some a := by
    have hfilter := hperm.filter (fun b => decide (key <:+ b.name))
    rw [ha, List.perm_singleton] at hfilter
    rw [← List.head?_filter, hfilter]
    rfl
  cases h with
  | @opening name attrs attrs' hperm =>
    have hhead : (61 : UInt8) ∉ 60 :: name := by simpa [Tag.name] using hname
    have hfound := Markup.find_key hkey hwf.2 (hfind hperm ha) hhead [62]
    simpa [Tag.render, Tag.head, Tag.attrs] using hfound
  | @empty name attrs attrs' hperm =>
    have hhead : (61 : UInt8) ∉ 60 :: name := by simpa [Tag.name] using hname
    have hfound := Markup.find_key hkey hwf.2 (hfind hperm ha) hhead [47, 62]
    simpa [Tag.render, Tag.head, Tag.attrs] using hfound
  | closing => contradiction

end Attributes

end Markup
