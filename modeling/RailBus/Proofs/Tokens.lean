import RailBus.Yaml.Layout
import RailBus.Proofs.Words

/-!
# The tokens of a text of sections

Records of scalars, each under a name, with every field on a line of its own: a mapping of
mappings as it is usually written. The tokeniser is followed through such a text, backwards from
the tokens it ends with: each step says which tokens come of a text if certain tokens come of what
is left of it.
-/

namespace RailBus.Yaml

def word (text : String) : Token := .scalar text .plain

/-- What may stand in front of a colon. -/
structure Key (text : String) : Prop extends Plain text where
  short : text.toList.length ≤ Layout.keyReach

instance (text : String) : Decidable (Key text) :=
  decidable_of_iff
    ((text.toList ≠ [] ∧ text.toList.all isPlainChar = true) ∧
      text.toList.length ≤ Layout.keyReach)
    ⟨fun ⟨⟨hne, hchars⟩, hshort⟩ => ⟨⟨hne, List.all_eq_true.1 hchars⟩, hshort⟩,
      fun h => ⟨⟨h.nonempty, List.all_eq_true.2 h.chars⟩, h.short⟩⟩

namespace Layout

/-! ## Steps -/

/-- With a step for every character left, and one for the end, the tokens become `ts`. -/
def Reads (l : Layout) (ts : List Token) : Prop :=
  ∀ n, l.cursor.rest.length < n → l.run n = .ok ts

theorem takeWhile_spaces {more : List Char} (hmore : Settled more) (tabs : Bool) (j : Nat) :
    (List.replicate j ' ' ++ more).takeWhile (fun x => x == ' ' || (tabs && x == '\t')) =
      List.replicate j ' ' := by
  have htail : more.takeWhile (fun x => x == ' ' || (tabs && x == '\t')) = [] := by
    cases more with
    | nil => rfl
    | cons x more =>
      have hx := (hmore x rfl).1
      simp only [isGap, isSpace, Bool.or_eq_false_iff] at hx
      simp [hx.1.1, hx.1.2]
  rw [List.takeWhile_append_of_pos (by simp +contextual [List.mem_replicate]), htail,
    List.append_nil]

section Steps

variable {l l' : Layout} {more : List Char} {line column index : Nat} {ts toks : List Token}
  {i : Int} {outer : List Int} {allowed : Bool}

theorem passGaps_spaces (hmore : Settled more) (candidates : List (Option Candidate)) (j n : Nat) :
    passGaps ⟨⟨List.replicate j ' ' ++ more, line, column, index⟩, toks, i, outer, allowed,
        candidates⟩ (n + 1) =
      ⟨⟨more, line, column + j, index + j⟩, toks, i, outer, allowed, candidates⟩ := by
  have hmark : Cursor.peek ⟨List.replicate j ' ' ++ more, line, column, index⟩ ≠
      some byteOrderMark := by
    cases j with
    | zero => exact fun h => (hmore _ h).2.2 rfl
    | succ j => simp [Cursor.peek, List.replicate_succ, byteOrderMark]
  have hbehind : more.head? ≠ some '#' ∧ more.head?.any isBreak = false := by
    cases more with
    | nil => simp
    | cons x more =>
      obtain ⟨hgap, hhash, -⟩ := hmore x rfl
      simp [hhash, (Bool.or_eq_false_iff.1 hgap).2]
  rw [passGaps]
  simp only [hmark, and_false, if_false, Cursor.span, takeWhile_spaces hmore, List.length_replicate,
    Cursor.skip_spaces]
  simp [Cursor.peek, hbehind]

theorem passGaps_lineFeed (hmore : Settled more) (j n : Nat) :
    passGaps ⟨⟨'\n' :: (List.replicate j ' ' ++ more), line, column, index⟩, toks, i, outer,
        allowed, [none]⟩ (n + 2) =
      ⟨⟨more, line + 1, j, index + 1 + j⟩, toks, i, outer, true, [none]⟩ := by
  have hstop : isBreak '\n' = true ∧ '\n'.utf8Size = 1 ∧ '\n' ≠ byteOrderMark := by decide
  rw [passGaps]
  simp [Cursor.peek, Cursor.span, hstop, Cursor.skip, Cursor.advance, inFlow,
    passGaps_spaces hmore]

theorem passGaps_settled (h : Settled l.cursor.rest) (n : Nat) : l.passGaps n = l := by
  obtain ⟨⟨rest, line, column, index⟩, ts, indent, outer, allowed, candidates⟩ := l
  cases n with
  | zero => rfl
  | succ n => exact passGaps_spaces h candidates 0 n

theorem Reads.of_passGaps (h : ∀ n, l.cursor.rest.length < n → l.passGaps n = l')
    (hsettled : Settled l'.cursor.rest) (hlength : l'.cursor.rest.length ≤ l.cursor.rest.length)
    (hreads : l'.Reads ts) : l.Reads ts := by
  intro n hn
  have hrest := hreads n (by omega)
  obtain _ | n := n
  · omega
  · simp only [run, passGaps_settled hsettled] at hrest
    simp only [run, h (n + 1) hn]
    exact hrest

theorem Reads.of_space (hmore : Settled more)
    (hreads : Reads ⟨⟨more, line, column + 1, index + 1⟩, toks, i, outer, allowed, [none]⟩ ts) :
    Reads ⟨⟨' ' :: more, line, column, index⟩, toks, i, outer, allowed, [none]⟩ ts := by
  refine .of_passGaps (fun n hn => ?_) hmore (by simp) hreads
  obtain _ | n := n
  · omega
  · exact passGaps_spaces hmore [none] 1 n

theorem Reads.of_lineFeed {j : Nat} (hmore : Settled more)
    (hreads : Reads ⟨⟨more, line + 1, j, index + 1 + j⟩, toks, i, outer, true, [none]⟩ ts) :
    Reads ⟨⟨'\n' :: (List.replicate j ' ' ++ more), line, column, index⟩, toks, i, outer, allowed,
      [none]⟩ ts := by
  refine .of_passGaps (fun n hn => ?_) hmore (by simp; omega) hreads
  obtain _ | _ | n := n
  · omega
  · simp at hn
  · exact passGaps_lineFeed hmore j n

/-- A step where a token begins and no candidate has expired. -/
theorem run_settled (hsettled : Settled l.cursor.rest) (hlive : l.expireCandidates? = some l)
    (n : Nat) : l.run (n + 1) =
      let l := l.unroll l.cursor.column
      match l.cursor.peek with
      | none => match l.leaveBlocks? with
        | none => .error l.cursor.line
        | some l => .ok l.tokens
      | some x => match l.next? x with
        | none => .error l.cursor.line
        | some l => l.run n := by
  rw [run, passGaps_settled hsettled]
  exact hlive ▸ rfl

theorem unroll_of_le {column : Int} (h : l.indent ≤ column) : l.unroll column = l := by
  obtain ⟨cursor, tokens, indent, outer, allowed, candidates⟩ := l
  have hstay : unrollFrom tokens indent column outer = (tokens, indent, outer) := by
    cases outer with
    | nil => rfl
    | cons i outer => exact if_neg (Int.not_lt.2 h)
  simp [unroll, hstay]

theorem Reads.of_next {x : Char} (hsettled : Settled l.cursor.rest)
    (hlive : l.expireCandidates? = some l) (hindent : l.indent ≤ l.cursor.column)
    (hpeek : l.cursor.peek = some x) (hnext : l.next? x = some l')
    (hlength : l'.cursor.rest.length < l.cursor.rest.length) (hreads : l'.Reads ts) :
    l.Reads ts := by
  intro n hn
  obtain _ | n := n
  · omega
  · rw [run_settled hsettled hlive, unroll_of_le hindent]
    simp only [hpeek, hnext]
    exact hreads n (by omega)

/-- A collection ends where the column is back at that of the collection around it. -/
theorem Reads.of_unroll {c : Cursor} {around : Int} (hsettled : Settled c.rest)
    (hend : c.column < i) (hstay : around ≤ c.column)
    (hreads : Reads ⟨c, toks ++ [.blockEnd], around, outer, true, [none]⟩ ts) :
    Reads ⟨c, toks, i, around :: outer, true, [none]⟩ ts := by
  have hunroll : unroll ⟨c, toks, i, around :: outer, true, [none]⟩ c.column =
      ⟨c, toks ++ [.blockEnd], around, outer, true, [none]⟩ := by
    have hinner :=
      unroll_of_le (l := ⟨c, toks ++ [.blockEnd], around, outer, true, [none]⟩) hstay
    simpa [unroll, inFlow, unrollFrom, hend] using hinner
  intro n hn
  have hrest := hreads n hn
  obtain _ | n := n
  · omega
  · rw [run_settled hsettled rfl, unroll_of_le hstay] at hrest
    rw [run_settled hsettled rfl, hunroll]
    exact hrest

/-- The end of a text whose outermost collection is at the first column. -/
theorem reads_end : Reads ⟨⟨[], line, 0, index⟩, toks, 0, [-1], true, [none]⟩
    (toks ++ [.blockEnd]) := by
  intro n hn
  obtain _ | n := n
  · omega
  · rw [run_settled settled_nil rfl, unroll_of_le (Int.le_refl 0)]
    simp [Cursor.peek, leaveBlocks?, unroll, unrollFrom, inFlow, dropCandidate?, allowKey]

end Steps

/-! ## Words and colons -/

section Next

variable {l : Layout} {x : Char} {text : String} {more : List Char} {line column index : Nat}
  {ts toks begun : List Token} {i : Int} {outer around : List Int}

theorem next?_of_isPlainChar (hpeek : l.cursor.peek = some x) (hx : isPlainChar x = true) :
    l.next? x = (do
      let l' ← l.saveCandidate?
      let (text, behindBreak, c) ← plain? l'.inFlow (l'.indent + 1).toNat l.cursor
      l'.scalarToken? .plain (text, c) behindBreak) := by
  have hne := forall_ne_of_isPlainChar ['%', '[', '\x7b', ']', '\x7d', ',', '-', '?', ':', '*',
    '&', '!', '|', '>', '\'', '"', '#', '@', '\x60'] hx (by decide)
  simp only [List.forall_mem_cons] at hne
  have hstart : l.plainStart x = true := by simp [plainStart, isGap_of_isPlainChar hx, hne]
  simp [next?, Cursor.atMarker_of_isPlainChar hpeek hx, hne, hstart]

/-- In front of a colon a word is a scalar for the time being, and its place a candidate. -/
theorem next?_key (h : Plain text) (hmore : more.head?.all isGap = true)
    (hpeek : Cursor.peek ⟨text.toList ++ ':' :: more, line, column, index⟩ = some x) :
    next? ⟨⟨text.toList ++ ':' :: more, line, column, index⟩, toks, i, outer, true, [none]⟩ x =
      some ⟨⟨':' :: more, line, column + text.toList.length, index + text.toList.length⟩,
        toks ++ [word text], i, outer, false,
        [some ⟨i == column, toks.length, ⟨text.toList ++ ':' :: more, line, column, index⟩⟩]⟩ := by
  obtain ⟨y, rest, heq, hy⟩ := h.exists_cons
  obtain rfl : y = x := by simpa [Cursor.peek, heq] using hpeek
  rw [next?_of_isPlainChar hpeek hy]
  simp [saveCandidate?, dropCandidate?, inFlow, h.plain?_colon hmore, scalarToken?, emit, allowKey,
    word]

theorem next?_value (h : Plain text) (hmore : Settled more) {j : Nat} (hj : j ≤ i)
    (hpeek : Cursor.peek ⟨text.toList ++ '\n' :: (List.replicate j ' ' ++ more), line, column,
      index⟩ = some x) :
    next? ⟨⟨text.toList ++ '\n' :: (List.replicate j ' ' ++ more), line, column, index⟩, toks, i,
        outer, false, [none]⟩ x =
      some ⟨⟨more, line + 1, j, index + text.toList.length + 1 + j⟩,
        toks ++ [word text], i, outer, true, [none]⟩ := by
  obtain ⟨y, rest, heq, hy⟩ := h.exists_cons
  obtain rfl : y = x := by simpa [Cursor.peek, heq] using hpeek
  rw [next?_of_isPlainChar hpeek hy]
  have hj : j < (i + 1).toNat := by omega
  simp [saveCandidate?, inFlow, h.plain?_lineFeed hmore hj, scalarToken?, emit, allowKey, word]

/-- Whether a mapping begins at `column` or goes on there: the tokens that say so, and what is
around the mapping. -/
inductive Begins (i : Int) (outer : List Int) (column : Nat) : List Token → List Int → Prop
  | opened (h : i < column) : Begins i outer column [.blockMappingStart] (i :: outer)
  | continued (h : i = column) : Begins i outer column [] outer

theorem Begins.le (h : Begins i outer column begun around) : i ≤ column := by
  cases h <;> omega

/-- The colon puts the marks of the key in front of the token that is already there. -/
theorem next?_colon {start : Cursor} {required : Bool} {t : Token}
    (hbegins : Begins i outer start.column begun around) (hmore : more.head?.all isGap = true) :
    next? ⟨⟨':' :: more, line, column, index⟩, toks ++ [t], i, outer, false,
        [some ⟨required, toks.length, start⟩]⟩ ':' =
      some ⟨⟨more, line, column + 1, index + 1⟩, toks ++ begun ++ [.key, t, .value], start.column,
        around, false, [none]⟩ := by
  have hmarker : Cursor.atMarker ⟨':' :: more, line, column, index⟩ = false := by
    simp [Cursor.atMarker, Cursor.startsWith]
  have hgap : Cursor.gapAfter ⟨':' :: more, line, column, index⟩ 1 = true := by
    simpa [Cursor.gapAfter, List.head?_eq_getElem?] using hmore
  have hcolon : isBreak ':' = false ∧ ':'.utf8Size = 1 := by decide
  cases hbegins with
  | opened h =>
    simp [next?, hmarker, hgap, value?, roll, inFlow, h, emitAt, emit, skip, allowKey, Cursor.skip,
      Cursor.advance, hcolon]
  | continued h =>
    simp [next?, hmarker, hgap, value?, roll, inFlow, h, emitAt, emit, skip, allowKey, Cursor.skip,
      Cursor.advance, hcolon]

theorem expireCandidates?_of_live {k : Candidate} (h : l.candidates = [some k])
    (hlive : l.expired k = false) : l.expireCandidates? = some l := by
  obtain ⟨cursor, tokens, indent, outer, allowed, candidates⟩ := l
  subst h
  simp [expireCandidates?, hlive]

theorem reads_key (h : Key text) (hmore : more.head?.all isGap = true)
    (hbegins : Begins i outer column begun around)
    (hreads : Reads ⟨⟨more, line, column + text.toList.length + 1,
      index + text.toList.length + 1⟩, toks ++ begun ++ [.key, word text, .value], column, around,
      false, [none]⟩ ts) :
    Reads ⟨⟨text.toList ++ ':' :: more, line, column, index⟩, toks, i, outer, true, [none]⟩ ts := by
  obtain ⟨x, rest, heq, hx⟩ := h.exists_cons
  have hpeek : Cursor.peek ⟨text.toList ++ ':' :: more, line, column, index⟩ = some x := by
    simp [Cursor.peek, heq]
  have hcolon : Settled (':' :: more) := by
    rintro c ⟨⟩
    decide
  have hlength := h.length_pos
  have hindent := hbegins.le
  refine .of_next (h.settled _) rfl hindent hpeek (next?_key h.toPlain hmore hpeek)
    (by simp; omega) ?_
  have hshort := h.short
  refine .of_next hcolon (expireCandidates?_of_live rfl (by simp [expired, hshort])) ?_ rfl
    (next?_colon hbegins hmore) (by simp) hreads
  simp
  omega

theorem reads_value (h : Plain text) (hmore : Settled more) {j : Nat} (hj : j ≤ i)
    (hindent : i ≤ column)
    (hreads : ∀ index, Reads ⟨⟨more, line + 1, j, index⟩, toks ++ [word text], i, outer, true,
      [none]⟩ ts) :
    Reads ⟨⟨' ' :: (text.toList ++ '\n' :: (List.replicate j ' ' ++ more)), line, column, index⟩,
      toks, i, outer, false, [none]⟩ ts := by
  obtain ⟨x, rest, heq, hx⟩ := h.exists_cons
  have hsettled := h.settled ('\n' :: (List.replicate j ' ' ++ more))
  have hpeek : Cursor.peek ⟨text.toList ++ '\n' :: (List.replicate j ' ' ++ more), line,
      column + 1, index + 1⟩ = some x := by simp [Cursor.peek, heq]
  have hlength := h.length_pos
  exact .of_space hsettled (.of_next hsettled rfl (by simp; omega) hpeek
    (next?_value h hmore hj hpeek) (by simp; omega) (hreads _))

end Next

end Layout

/-! ## Sections -/

structure Section where
  name : String
  fields : List (String × String)

structure Section.Plain (s : Section) : Prop where
  name : Key s.name
  nonempty : s.fields ≠ []
  fields : ∀ f ∈ s.fields, Key f.1 ∧ Yaml.Plain f.2

def fieldChars (f : String × String) : List Char :=
  f.1.toList ++ ':' :: ' ' :: (f.2.toList ++ ['\n'])

def indented (f : String × String) : List Char := ' ' :: ' ' :: fieldChars f

def Section.chars (s : Section) : List Char :=
  s.name.toList ++ ':' :: '\n' :: s.fields.flatMap indented

def fieldTokens (f : String × String) : List Token := [.key, word f.1, .value, word f.2]

def Section.tokens (s : Section) : List Token :=
  [.key, word s.name, .value, .blockMappingStart] ++ s.fields.flatMap fieldTokens ++ [.blockEnd]

theorem settled_fieldChars {f : String × String} (h : Key f.1) (more : List Char) :
    Settled (fieldChars f ++ more) := by
  rw [fieldChars, List.append_assoc]
  exact h.settled _

theorem settled_sections {ss : List Section} (h : ∀ s ∈ ss, s.Plain) :
    Settled (ss.flatMap Section.chars) := by
  cases ss with
  | nil => exact settled_nil
  | cons s ss =>
    rw [List.flatMap_cons, Section.chars, List.append_assoc]
    exact (h s (by simp)).name.settled _

namespace Layout

variable {more : List Char} {line column index : Nat} {ts toks begun : List Token} {i : Int}
  {outer around : List Int}

theorem reads_field {f : String × String} (hkey : Key f.1) (hvalue : Plain f.2)
    (hmore : Settled more) {j : Nat} (hj : j ≤ column)
    (hbegins : Begins i outer column begun around)
    (hreads : ∀ line index, Reads ⟨⟨more, line, j, index⟩, toks ++ begun ++ fieldTokens f, column,
      around, true, [none]⟩ ts) :
    Reads ⟨⟨fieldChars f ++ (List.replicate j ' ' ++ more), line, column, index⟩, toks, i, outer,
      true, [none]⟩ ts := by
  have hchars : fieldChars f ++ (List.replicate j ' ' ++ more) =
      f.1.toList ++ ':' :: ' ' :: (f.2.toList ++ '\n' :: (List.replicate j ' ' ++ more)) := by
    simp [fieldChars]
  rw [hchars]
  refine reads_key hkey (by simp; decide) hbegins
    (reads_value hvalue hmore (Int.ofNat_le.2 hj) (by simp; omega) fun index => ?_)
  simpa [fieldTokens] using hreads (line + 1) index

/-- The fields of one mapping, the first of which may open it. -/
theorem reads_fields {f : String × String} {fs : List (String × String)}
    (hf : ∀ g ∈ f :: fs, Key g.1 ∧ Plain g.2) (hmore : Settled more)
    (hbegins : Begins i outer 2 begun around)
    (hreads : ∀ line index, Reads ⟨⟨more, line, 0, index⟩,
      toks ++ begun ++ (f :: fs).flatMap fieldTokens, 2, around, true, [none]⟩ ts) :
    Reads ⟨⟨fieldChars f ++ (fs.flatMap indented ++ more), line, 2, index⟩, toks, i, outer, true,
      [none]⟩ ts := by
  induction fs generalizing f toks i outer begun line index with
  | nil =>
    obtain ⟨hkey, hvalue⟩ := hf f (by simp)
    refine reads_field hkey hvalue hmore (j := 0) (by omega) hbegins fun line index => ?_
    simpa using hreads line index
  | cons g fs ih =>
    obtain ⟨hkey, hvalue⟩ := hf f (by simp)
    have hnext := settled_fieldChars (hf g (by simp)).1 (fs.flatMap indented ++ more)
    have hchars : (g :: fs).flatMap indented ++ more =
        List.replicate 2 ' ' ++ (fieldChars g ++ (fs.flatMap indented ++ more)) := by
      simp [indented]
    rw [hchars]
    refine reads_field hkey hvalue hnext (Nat.le_refl 2) hbegins fun line index => ?_
    refine ih (fun g hg => hf g (List.mem_cons_of_mem _ hg)) (.continued rfl) fun line index => ?_
    simpa using hreads line index

/-- After a section the mapping around it is at the first column, where the next one goes on. -/
theorem reads_section {s : Section} (h : s.Plain) (hmore : Settled more)
    (hbegins : Begins i outer 0 begun around)
    (hreads : ∀ line index, Reads ⟨⟨more, line, 0, index⟩, toks ++ begun ++ s.tokens, 0, around,
      true, [none]⟩ ts) :
    Reads ⟨⟨s.chars ++ more, line, 0, index⟩, toks, i, outer, true, [none]⟩ ts := by
  obtain ⟨f, fs, hfields⟩ := List.exists_cons_of_ne_nil h.nonempty
  have hf := h.fields
  rw [hfields] at hf
  have hnext := settled_fieldChars (hf f (by simp)).1 (fs.flatMap indented ++ more)
  have hchars : s.chars ++ more = s.name.toList ++ ':' :: '\n' ::
      (List.replicate 2 ' ' ++ (fieldChars f ++ (fs.flatMap indented ++ more))) := by
    simp [Section.chars, hfields, indented, List.replicate_succ]
  rw [hchars]
  refine reads_key h.name (by simp; decide) hbegins (.of_lineFeed hnext
    (reads_fields hf hmore (.opened (by decide)) fun line index => ?_))
  have hrest := hreads line index
  refine .of_unroll hmore (Int.ofNat_lt.2 (by decide : 0 < 2)) (Int.le_refl 0) ?_
  simpa [Section.tokens, hfields] using hrest

theorem reads_sections {ss : List Section} (h : ∀ s ∈ ss, s.Plain) :
    Reads ⟨⟨ss.flatMap Section.chars, line, 0, index⟩, toks, 0, [-1], true, [none]⟩
      (toks ++ ss.flatMap Section.tokens ++ [.blockEnd]) := by
  induction ss generalizing toks line index with
  | nil => simpa using @reads_end line index toks
  | cons s ss ih =>
    have hrest := fun s hs => h s (List.mem_cons_of_mem _ hs)
    rw [List.flatMap_cons]
    refine reads_section (h s (by simp)) (settled_sections hrest) (.continued rfl)
      fun line index => ?_
    simpa using @ih line index (toks ++ s.tokens) hrest

end Layout

/-! ## Texts -/

theorem unifyBreaks_eq {cs : List Char} (h : ∀ c ∈ cs, c ≠ '\r' ∧ c ≠ '\u0085') :
    unifyBreaks cs = cs := by
  induction cs with
  | nil => rfl
  | cons c cs ih =>
    obtain ⟨hreturn, hnext⟩ := h c (by simp)
    rw [unifyBreaks, ih fun c hc => h c (List.mem_cons_of_mem _ hc)]
    all_goals simp_all

theorem of_mem_chars {ss : List Section} (h : ∀ s ∈ ss, s.Plain) {c : Char}
    (hc : c ∈ ss.flatMap Section.chars) : isPlainChar c = true ∨ c = ':' ∨ c = ' ' ∨ c = '\n' := by
  obtain ⟨s, hs, hc⟩ := List.mem_flatMap.1 hc
  simp only [Section.chars, List.mem_append, List.mem_cons, List.mem_flatMap] at hc
  rcases hc with hc | rfl | rfl | ⟨f, hf, hc⟩
  · exact .inl ((h s hs).name.chars c hc)
  · exact .inr (.inl rfl)
  · exact .inr (.inr (.inr rfl))
  · have hkey := ((h s hs).fields f hf).1.chars c
    have hvalue := ((h s hs).fields f hf).2.chars c
    simp only [indented, fieldChars, List.mem_cons, List.mem_append, List.not_mem_nil,
      or_false] at hc
    tauto

theorem forall_mem_chars {p : Char → Prop} {ss : List Section} (h : ∀ s ∈ ss, s.Plain)
    (hplain : ∀ c, isPlainChar c = true → p c) (hmarks : p ':' ∧ p ' ' ∧ p '\n') :
    ∀ c ∈ ss.flatMap Section.chars, p c := by
  intro c hc
  rcases of_mem_chars h hc with hc | rfl | rfl | rfl
  · exact hplain c hc
  · exact hmarks.1
  · exact hmarks.2.1
  · exact hmarks.2.2

/-- Sections make a mapping of mappings. -/
theorem tokens_sections {ss : List Section} (h : ∀ s ∈ ss, s.Plain) (hne : ss ≠ []) :
    tokens (ss.flatMap Section.chars) =
      .ok (.blockMappingStart :: (ss.flatMap Section.tokens ++ [.blockEnd])) := by
  have hunify : unifyBreaks (ss.flatMap Section.chars) = ss.flatMap Section.chars :=
    unifyBreaks_eq (forall_mem_chars h
      (fun c hc => ⟨ne_of_isPlainChar hc (by decide), ne_of_isPlainChar hc (by decide)⟩)
      (by decide))
  rw [tokens, hunify]
  obtain ⟨s, ss, rfl⟩ := List.exists_cons_of_ne_nil hne
  have hrest := fun s hs => h s (List.mem_cons_of_mem _ hs)
  have hreads : Layout.Reads { cursor := ⟨s.chars ++ ss.flatMap Section.chars, 0, 0, 0⟩ }
      (.blockMappingStart :: ((s :: ss).flatMap Section.tokens ++ [.blockEnd])) := by
    refine Layout.reads_section (h s (by simp)) (settled_sections hrest) (.opened (by decide))
      fun line index => ?_
    simpa using @Layout.reads_sections line index (.blockMappingStart :: s.tokens) ss hrest
  exact hreads _ (Nat.lt_succ_self _)

end RailBus.Yaml
