import Mathlib.Algebra.BigOperators.Group.List.Basic
import Mathlib.Data.List.Nodup
import TraceWeave.Proofs.Lists
import TraceWeave.Proofs.Yaml.Printable
import TraceWeave.Yaml.Record

/-!
# Documents in sections

A document of sections, each with a line for every value, is read as a mapping of mappings. Which
tokens its lines give rise to depends on the columns of the lines alone: the first line of a
section opens a mapping and the next section closes it.

* `tokens?_sections`: the tokens of such a document;
* `entries_members`: a mapping is read member by member;
* `ofText?_sections`: the tree of such a document;
* `fields?_members`: the members of a mapping are found by their keys.
-/

namespace TraceWeave.Yaml

open TraceWeave.Text Written

/-! ## Mappings -/

/-- A key with the tokens of its value, and what these are read as. -/
structure Member where
  key : String
  tokens : List Token
  node : Node

namespace Member

def spelled (m : Member) : List Token :=
  .key :: .scalar .plain m.key.toList :: .value :: m.tokens

def entry (m : Member) : Node × Node :=
  (.scalar none .plain m.key.toList, m.node)

/-- The value is read from its tokens if there is so much fuel. -/
def IsRead (bound : Nat) (m : Member) : Prop :=
  ∀ fuel, bound ≤ fuel → ∀ (r : Reading) (rest : List Token),
    (Reader.nodeUnless fuel [.key, .value, .blockEnd] true true).run
      { r with tokens := m.tokens ++ rest } = some (m.node, { r with tokens := rest })

variable {bound : Nat} {members : List Member}

theorem IsRead.mono {bound' : Nat} {m : Member} (h : m.IsRead bound) (hle : bound ≤ bound') :
    m.IsRead bound' :=
  fun fuel hfuel => h fuel (Nat.le_trans hle hfuel)

theorem isRead_scalar (key : String) (style : Style) (text : List Char) :
    IsRead 2 ⟨key, [.scalar style text], .scalar none style text⟩ := by
  intro fuel hfuel r rest
  obtain ⟨fuel, rfl⟩ : ∃ n, fuel = n + 2 := ⟨fuel - 2, by omega⟩
  rfl

/-- A mapping is read member by member. -/
theorem entries_members (h : ∀ m ∈ members, m.IsRead bound) (hbound : 2 ≤ bound) {fuel : Nat}
    (hfuel : bound + members.length + 1 ≤ fuel) (r : Reading) (rest : List Token) :
    (Reader.entries fuel).run { r with tokens := members.flatMap spelled ++ .blockEnd :: rest } =
      some (members.map entry, { r with tokens := rest }) := by
  induction members generalizing fuel with
  | nil =>
    obtain ⟨fuel, rfl⟩ : ∃ n, fuel = n + 1 := ⟨fuel - 1, by omega⟩
    rfl
  | cons m members ih =>
    rw [List.length_cons] at hfuel
    obtain ⟨fuel, rfl⟩ : ∃ n, fuel = n + 3 := ⟨fuel - 3, by omega⟩
    have hstep (tokens : List Token) : (Reader.entries (fuel + 3)).run
        { r with tokens := .key :: .scalar .plain m.key.toList :: .value :: tokens } =
          ((Reader.nodeUnless (fuel + 2) [.key, .value, .blockEnd] true true).run
            { r with tokens := tokens }).bind fun p => ((Reader.entries (fuel + 2)).run p.2).bind
              fun q => some ((.scalar none .plain m.key.toList, p.1) :: q.1, q.2) := rfl
    have hvalue := h m List.mem_cons_self (fuel + 2) (by omega) r
      (members.flatMap spelled ++ .blockEnd :: rest)
    have hrest := @ih (fun x hx => h x (List.mem_cons_of_mem _ hx)) (fuel + 2) (by omega)
    rw [List.flatMap_cons, List.append_assoc, spelled, List.cons_append, List.cons_append,
      List.cons_append, hstep, hvalue, Option.bind_some, hrest]
    rfl

theorem isRead_mapping (h : ∀ m ∈ members, m.IsRead bound) (hbound : 2 ≤ bound) (key : String) :
    IsRead (bound + members.length + 3) ⟨key,
      .mappingStart :: (members.flatMap spelled ++ [.blockEnd]), .mapping (members.map entry)⟩ := by
  intro fuel hfuel r rest
  obtain ⟨fuel, rfl⟩ : ∃ n, fuel = n + 2 := ⟨fuel - 2, by omega⟩
  have hstep (tokens : List Token) :
      (Reader.nodeUnless (fuel + 2) [.key, .value, .blockEnd] true true).run
        { r with tokens := .mappingStart :: tokens } =
          ((Reader.entries fuel).run { r with tokens := tokens }).bind
            fun p => some (.mapping p.1, p.2) := rfl
  dsimp only
  rw [List.cons_append, hstep, List.append_assoc, List.singleton_append,
    entries_members h hbound (by omega)]
  rfl

/-- A document that is a mapping. -/
theorem document_mapping (h : ∀ m ∈ members, m.IsRead bound) (hbound : 2 ≤ bound) {fuel : Nat}
    (hfuel : bound + members.length + 2 ≤ fuel) :
    (Reader.document fuel).run
      { tokens := .mappingStart :: (members.flatMap spelled ++ [.blockEnd]) } =
        some (.mapping (members.map entry), { tokens := [] }) := by
  obtain ⟨fuel, rfl⟩ : ∃ n, fuel = n + 1 := ⟨fuel - 1, by omega⟩
  have hstep (tokens : List Token) :
      (Reader.document (fuel + 1)).run { tokens := .mappingStart :: tokens } =
        (((Reader.entries fuel).run { tokens := tokens }).bind fun p =>
          some (Node.mapping p.1, p.2)).bind fun p =>
            StateT.run (if p.2.tokens.all (· = .documentEnd) then pure p.1 else failure) p.2 := rfl
  have hentries := @entries_members bound members h hbound fuel (by omega) { tokens := [] } []
  rw [hstep, hentries]
  rfl

end Member

/-! ## Lines -/

/-- A line of a section, with what is read from it. -/
structure Entry where
  key : String
  written : List Char
  style : Style
  text : List Char

/-- A section with its lines. -/
structure Section where
  name : String
  entries : List Entry

namespace Entry

def line (e : Entry) : List Char :=
  "  ".toList ++ e.key.toList ++ ": ".toList ++ e.written

def member (e : Entry) : Member :=
  ⟨e.key, [.scalar e.style e.text], .scalar none e.style e.text⟩

structure Readable (e : Entry) : Prop where
  key : Scanner.IsKey e.key.toList
  value : Denotes 3 e.written e.style e.text

end Entry

namespace Section

def lines (s : Section) : List Char :=
  s.name.toList ++ ":\n".toList ++ (s.entries.map Entry.line).flatten

/-- The tokens of the section while it is open. -/
def opened (s : Section) : List Token :=
  .key :: .scalar .plain s.name.toList :: .value :: .mappingStart ::
    s.entries.flatMap (·.member.spelled)

def member (s : Section) : Member :=
  ⟨s.name, .mappingStart :: (s.entries.flatMap (·.member.spelled) ++ [.blockEnd]),
    .mapping (s.entries.map (·.member.entry))⟩

theorem spelled_member (s : Section) : s.member.spelled = s.opened ++ [.blockEnd] := by
  simp [Member.spelled, member, opened]

structure Readable (s : Section) : Prop where
  name : Scanner.IsKey s.name.toList
  some_entry : s.entries ≠ []
  entries : ∀ e ∈ s.entries, e.Readable

end Section

namespace Scanner

variable {tokens tokens' : List Token} {cs ds rest : List Char} {s s' s'' : Scanner}

/-- The lines take the scanner from one state to another, whatever section or line comes next. -/
def Reads (cs : List Char) (s s' : Scanner) : Prop :=
  ∀ line rest, Outdented 3 rest → ∃ n line', n ≤ cs.length ∧
    Leads n s (locate line 0 0 (cs ++ rest)) s' (locate line' 0 0 rest)

theorem Reads.nil : Reads [] s s :=
  fun line _ _ => ⟨0, line, Nat.le_refl 0, fun _ => rfl⟩

theorem Reads.append (h : Reads cs s s') (h' : Reads ds s' s'')
    (hds : ∀ rest, Outdented 3 rest → Outdented 3 (ds ++ rest)) : Reads (cs ++ ds) s s'' := by
  intro line rest hrest
  obtain ⟨n, line', hn, hleads⟩ := h line (ds ++ rest) (hds rest hrest)
  obtain ⟨n', line'', hn', hleads'⟩ := h' line' rest hrest
  refine ⟨n + n', line'', by rw [List.length_append]; omega, ?_⟩
  rw [List.append_assoc]
  exact hleads.trans hleads'

theorem IsKey.outdented {key : List Char} (hkey : IsKey key) {n : Nat} (hn : n < 3)
    (cs : List Char) : Outdented 3 (List.replicate n ' ' ++ (key ++ cs)) := by
  obtain ⟨c, key, rfl⟩ := List.exists_cons_of_ne_nil hkey.some_char
  exact .line hn (hkey.word c List.mem_cons_self)

/-! ### States behind a key -/

theorem keyed_nested {columns columns' : List Nat} {n : Nat} {key : List Char}
    (hclose : close ⟨tokens, columns, none, [], true⟩ (some n) =
      ⟨tokens', columns', none, [], true⟩)
    (hcolumns : ∀ first ∈ columns'.head?, first < n) :
    keyed ⟨tokens, columns, none, [], true⟩ n key =
      ⟨tokens' ++ [.mappingStart, .key, .scalar .plain key, .value], n :: columns', none, [],
        false⟩ := by
  have hstart := insertIdx_length tokens' [] .mappingStart
  rw [List.append_nil] at hstart
  have hmargin : ¬n < margin ⟨tokens', columns', none, [], true⟩ := by
    cases columns' with
    | nil => exact Nat.not_lt_zero n
    | cons first columns' => exact Nat.not_lt.mpr (hcolumns first rfl)
  simp [keyed, hclose, openBlock, insert, inFlow, hmargin, hstart, emit, allowKey]

theorem keyed_beside {columns columns' : List Nat} {n : Nat} {key : List Char}
    (hclose : close ⟨tokens, columns, none, [], true⟩ (some n) =
      ⟨tokens', n :: columns', none, [], true⟩) :
    keyed ⟨tokens, columns, none, [], true⟩ n key =
      ⟨tokens' ++ [.key, .scalar .plain key, .value], n :: columns', none, [], false⟩ := by
  have hmargin : n < margin ⟨tokens', n :: columns', none, [], true⟩ := Nat.lt_succ_self n
  simp [keyed, hclose, openBlock, hmargin, emit, allowKey]

/-! ### Lines and sections -/

theorem reads_entry {e : Entry} (he : e.Readable) {columns : List Nat}
    (hkeyed : keyed ⟨tokens, columns, none, [], true⟩ 2 e.key.toList =
      ⟨tokens', [2, 0], none, [], false⟩) :
    Reads e.line ⟨tokens, columns, none, [], true⟩
      ⟨tokens' ++ [.scalar e.style e.text], [2, 0], none, [], true⟩ := by
  intro line rest hrest
  obtain ⟨column, offset, hcolumn, hkey⟩ := @leads_key line (e.written ++ rest) tokens columns 2
    e.key.toList ' ' he.key rfl
  rw [hkeyed] at hkey
  obtain ⟨line', hvalue⟩ := @leads_value line column offset 2 tokens' [0] rest e.written e.text
    e.style he.value hcolumn hrest
  refine ⟨2 + 1, line', by simp [Entry.line]; omega, ?_⟩
  have htext : e.line ++ rest =
      List.replicate 2 ' ' ++ (e.key.toList ++ ':' :: ' ' :: (e.written ++ rest)) := by
    simp [Entry.line]
  rw [htext]
  exact hkey.trans hvalue

theorem reads_header {name : String} (hname : IsKey name.toList) {columns : List Nat}
    (hkeyed : keyed ⟨tokens, columns, none, [], true⟩ 0 name.toList =
      ⟨tokens', [0], none, [], false⟩) :
    Reads (name.toList ++ ":\n".toList) ⟨tokens, columns, none, [], true⟩
      ⟨tokens', [0], none, [], true⟩ := by
  intro line rest hrest
  obtain ⟨column, offset, -, hkey⟩ :=
    @leads_key line rest tokens columns 0 name.toList '\n' hname rfl
  rw [hkeyed] at hkey
  refine ⟨2, line + 1, by simp, ?_⟩
  have htext : name.toList ++ ":\n".toList ++ rest =
      List.replicate 0 ' ' ++ (name.toList ++ ':' :: '\n' :: rest) := by
    simp
  rw [htext]
  exact hkey.trans (leads_space (skipSpace_break rfl))

theorem outdented_entries {entries : List Entry} (h : ∀ e ∈ entries, e.Readable) :
    ∀ rest, Outdented 3 rest → Outdented 3 ((entries.map Entry.line).flatten ++ rest) := by
  intro rest hrest
  cases entries with
  | nil => exact hrest
  | cons e entries =>
    have he := h e List.mem_cons_self
    have htext : ((e :: entries).map Entry.line).flatten ++ rest =
        List.replicate 2 ' ' ++ (e.key.toList ++
          (": ".toList ++ e.written ++ (entries.map Entry.line).flatten ++ rest)) := by
      simp [Entry.line]
    rw [htext]
    exact he.key.outdented (by decide) _

theorem reads_entries {entries : List Entry} (h : ∀ e ∈ entries, e.Readable) :
    Reads (entries.map Entry.line).flatten ⟨tokens, [2, 0], none, [], true⟩
      ⟨tokens ++ entries.flatMap (·.member.spelled), [2, 0], none, [], true⟩ := by
  induction entries generalizing tokens with
  | nil =>
    rw [List.flatMap_nil, List.append_nil]
    exact .nil
  | cons e entries ih =>
    have hrest := fun x hx => h x (List.mem_cons_of_mem e hx)
    have hclose : close ⟨tokens, [2, 0], none, [], true⟩ (some 2) =
        ⟨tokens ++ [], [2, 0], none, [], true⟩ := rfl
    have hfirst := reads_entry (h e List.mem_cons_self) (keyed_beside hclose)
    have hall := hfirst.append (ih hrest) (outdented_entries hrest)
    simpa [Entry.member, Member.spelled] using hall

/-- A section, once its name has been read as a key. -/
theorem reads_section {x : Section} (hx : x.Readable) {columns : List Nat}
    (hkeyed : keyed ⟨tokens, columns, none, [], true⟩ 0 x.name.toList =
      ⟨tokens' ++ [.key, .scalar .plain x.name.toList, .value], [0], none, [], false⟩) :
    Reads x.lines ⟨tokens, columns, none, [], true⟩
      ⟨tokens' ++ x.opened, [2, 0], none, [], true⟩ := by
  obtain ⟨name, entries⟩ := x
  obtain ⟨e, entries, rfl⟩ := List.exists_cons_of_ne_nil hx.some_entry
  have he := hx.entries e List.mem_cons_self
  have hrest := fun x hx' => hx.entries x (List.mem_cons_of_mem e hx')
  have hclose : close ⟨tokens' ++ [.key, .scalar .plain name.toList, .value], [0], none, [], true⟩
      (some 2) =
        ⟨tokens' ++ [.key, .scalar .plain name.toList, .value] ++ [], [0], none, [], true⟩ := rfl
  have hentry := reads_entry he (keyed_nested hclose (by simp))
  have hentries := hentry.append (reads_entries hrest) (outdented_entries hrest)
  have hall := (reads_header hx.name hkeyed).append hentries (outdented_entries hx.entries)
  simpa [Section.lines, Section.opened, Entry.member, Member.spelled] using hall

theorem outdented_sections {sections : List Section} (h : ∀ x ∈ sections, x.Readable) :
    ∀ rest, Outdented 3 rest → Outdented 3 (sections.flatMap Section.lines ++ rest) := by
  intro rest hrest
  cases sections with
  | nil => exact hrest
  | cons x sections =>
    have hname := (h x List.mem_cons_self).name
    have htext : (x :: sections).flatMap Section.lines ++ rest = List.replicate 0 ' ' ++
        (x.name.toList ++ (":\n".toList ++ (x.entries.map Entry.line).flatten ++
          sections.flatMap Section.lines ++ rest)) := by
      simp [Section.lines]
    rw [htext]
    exact hname.outdented (by decide) _

/-- Each further section closes the one before it. -/
theorem reads_sections {sections : List Section} (h : ∀ x ∈ sections, x.Readable) :
    Reads (sections.flatMap Section.lines) ⟨tokens, [2, 0], none, [], true⟩
      ⟨tokens ++ sections.flatMap (fun x => .blockEnd :: x.opened), [2, 0], none, [], true⟩ := by
  induction sections generalizing tokens with
  | nil =>
    rw [List.flatMap_nil, List.flatMap_nil, List.append_nil]
    exact .nil
  | cons x sections ih =>
    have hrest := fun y hy => h y (List.mem_cons_of_mem x hy)
    have hclose : close ⟨tokens, [2, 0], none, [], true⟩ (some 0) =
        ⟨tokens ++ [.blockEnd], [0], none, [], true⟩ := rfl
    have hfirst := reads_section (h x List.mem_cons_self) (keyed_beside hclose)
    have hall := hfirst.append (ih hrest) (outdented_sections hrest)
    simpa using hall

end Scanner

theorem opened_sections (x : Section) (sections : List Section) :
    x.opened ++ sections.flatMap (fun x => .blockEnd :: x.opened) ++ [.blockEnd] =
      (x :: sections).flatMap (·.member.spelled) := by
  induction sections generalizing x with
  | nil => simp [Section.spelled_member]
  | cons y sections ih =>
    have hy := ih y
    rw [List.flatMap_cons] at hy
    rw [List.flatMap_cons, List.flatMap_cons, List.flatMap_cons, ← hy, Section.spelled_member]
    simp

/-- The tokens of a document of sections. -/
theorem tokens?_sections {sections : List Section} (hsome : sections ≠ [])
    (h : ∀ x ∈ sections, x.Readable) :
    tokens? (locate 0 0 0 (sections.flatMap Section.lines)) =
      some (.mappingStart :: (sections.flatMap (·.member.spelled) ++ [.blockEnd])) := by
  obtain ⟨x, sections, rfl⟩ := List.exists_cons_of_ne_nil hsome
  have hrest := fun y hy => h y (List.mem_cons_of_mem x hy)
  have hclose : Scanner.close ⟨[], [], none, [], true⟩ (some 0) = ⟨[], [], none, [], true⟩ := rfl
  have hkeyed := @Scanner.keyed_nested [] [] [] [] 0 x.name.toList hclose (by simp)
  have hfirst := @Scanner.reads_section [] [.mappingStart] x (h x List.mem_cons_self) [] hkeyed
  obtain ⟨n, line, hn, hleads⟩ := hfirst.append (Scanner.reads_sections hrest)
    (Scanner.outdented_sections hrest) 0 [] .nil
  rw [List.append_nil, ← List.flatMap_cons] at hleads
  rw [← List.flatMap_cons] at hn
  have hfuel : (locate 0 0 0 ((x :: sections).flatMap Section.lines)).length + 1 =
      ((x :: sections).flatMap Section.lines).length - n + 1 + n := by
    rw [length_locate]
    omega
  have hend (tokens : List Token) (fuel : Nat) :
      Scanner.run? (fuel + 1) ⟨tokens, [2, 0], none, [], true⟩ [] =
        some (tokens ++ [.blockEnd, .blockEnd]) := rfl
  rw [tokens?, hfuel, hleads, ← opened_sections, show locate line 0 0 [] = [] from rfl, hend]
  simp

/-! ## Documents -/

theorem Entry.Readable.printable {e : Entry} (he : e.Readable) :
    ∀ c ∈ e.line, isPrintable c = true := by
  have hkey := fun c hc => isPrintable_of_isWordChar (he.key.word c hc)
  simp only [Entry.line, List.forall_mem_append]
  exact ⟨⟨⟨List.all_eq_true.mp rfl, hkey⟩, List.all_eq_true.mp rfl⟩, he.value.printable⟩

theorem Section.Readable.printable {x : Section} (hx : x.Readable) :
    ∀ c ∈ x.lines, isPrintable c = true := by
  have hname := fun c hc => isPrintable_of_isWordChar (hx.name.word c hc)
  simp only [Section.lines, List.forall_mem_append]
  refine ⟨⟨hname, List.all_eq_true.mp rfl⟩, fun c hc => ?_⟩
  obtain ⟨line, hline, hc⟩ := List.mem_flatten.mp hc
  obtain ⟨e, he, rfl⟩ := List.mem_map.mp hline
  exact (hx.entries e he).printable c hc

theorem Section.isRead_member (x : Section) : x.member.IsRead (x.entries.length + 5) := by
  have hentries : ∀ m ∈ x.entries.map Entry.member, m.IsRead 2 := by
    intro m hm
    obtain ⟨e, -, rfl⟩ := List.mem_map.mp hm
    exact Member.isRead_scalar _ _ _
  have hread := Member.isRead_mapping hentries (Nat.le_refl 2) x.name
  rw [List.length_map, List.flatMap_map, List.map_map] at hread
  exact hread.mono (by omega)

theorem length_le_flatMap {α β : Type} {l : List α} {f : α → List β} (h : ∀ a ∈ l, f a ≠ []) :
    l.length ≤ (l.flatMap f).length := by
  have hone : ∀ n ∈ l.map (fun a => (f a).length), 1 ≤ n := by
    intro n hn
    obtain ⟨a, ha, rfl⟩ := List.mem_map.mp hn
    exact List.length_pos_iff.mpr (h a ha)
  have hsum := List.length_le_sum_of_one_le _ hone
  rwa [List.length_map, ← List.length_flatMap] at hsum

theorem Section.length_spelled (x : Section) : x.entries.length + 5 ≤ x.member.spelled.length := by
  have hentries : x.entries.length ≤ (x.entries.flatMap (·.member.spelled)).length :=
    length_le_flatMap fun e _ => List.cons_ne_nil _ _
  simp only [Section.spelled_member, Section.opened, List.length_append, List.length_cons,
    List.length_nil]
  omega

/-- A document of sections is a mapping of mappings. -/
theorem ofText?_sections {sections : List Section} (hsome : sections ≠ [])
    (h : ∀ x ∈ sections, x.Readable) :
    Document.ofText? (sections.flatMap Section.lines) =
      some ⟨.mapping (sections.map (·.member.entry)), []⟩ := by
  have hchars : ∀ c ∈ sections.flatMap Section.lines, isPrintable c = true := by
    intro c hc
    obtain ⟨x, hx, hc⟩ := List.mem_flatMap.mp hc
    exact (h x hx).printable c hc
  let tokens := sections.flatMap (·.member.spelled)
  have hlength : sections.length ≤ tokens.length :=
    length_le_flatMap fun x _ => List.cons_ne_nil _ _
  have hmembers : ∀ m ∈ sections.map Section.member, m.IsRead (tokens.length + 2) := by
    intro m hm
    obtain ⟨x, hx, rfl⟩ := List.mem_map.mp hm
    have hspelled := x.length_spelled
    have hpart := List.mem_map_of_mem (f := fun x : Section => x.member.spelled) hx
    have hle : x.member.spelled.length ≤ tokens.length :=
      (List.sublist_flatten_of_mem hpart).length_le
    exact x.isRead_member.mono (by omega)
  have hread := @Member.document_mapping (tokens.length + 2) (sections.map Section.member) hmembers
    (by omega) (2 * (tokens.length + 2) + 4) (by rw [List.length_map]; omega)
  rw [List.flatMap_map, List.map_map] at hread
  rw [Document.ofText?, sourceOf?_of_isPrintable hchars]
  simp only [Option.bind_eq_bind, Option.bind_some, tokens?_sections hsome h, List.length_cons,
    List.length_append, List.length_nil]
  rw [hread]
  rfl

/-! ## Records -/

/-- Each member is found by its key. -/
theorem Document.fields?_members {α : Type} (d : Document) (f : α → Member) {l : List α}
    (hnodup : (l.map fun a => (f a).key).Nodup) :
    d.fields? (l.map fun a => (f a).key) (.mapping (l.map fun a => (f a).entry)) =
      some (l.map fun a => some (f a).node) := by
  let pairs := l.map fun a => ((f a).key.toList, (f a).node)
  have hpairs : (l.map fun a => (f a).entry).mapM
      (fun p => do return (← d.keyText? p.1, p.2)) = some pairs := by
    rw [List.mapM_map]
    exact mapM_eq_some fun a _ => rfl
  have hdistinct : (pairs.map (·.1)).Nodup := by
    have hkeys := List.Nodup.map (f := String.toList) (fun _ _ => String.toList_inj.mp) hnodup
    rwa [List.map_map] at hkeys ⊢
  have hfields : (l.map fun a => (f a).key).mapM (field? pairs) =
      some (l.map fun a => some (f a).node) := by
    rw [List.mapM_map]
    refine mapM_eq_some fun a ha => ?_
    have hpair : ((f a).key.toList, (f a).node) ∈ pairs := List.mem_map_of_mem ha
    show field? pairs (f a).key = _
    unfold field?
    rw [filter_key hdistinct hpair]
  have hstep : d.fields? (l.map fun a => (f a).key) (.mapping (l.map fun a => (f a).entry)) =
      ((l.map fun a => (f a).entry).mapM fun p => do return (← d.keyText? p.1, p.2)) >>=
        fun pairs => (l.map fun a => (f a).key).mapM (field? pairs) := rfl
  rw [hstep, hpairs]
  exact hfields

end TraceWeave.Yaml
