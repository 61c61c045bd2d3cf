import Mathlib.Computability.Language

/-!
# Regular expressions

Extended regular expressions with classes of letters, as texts and as languages.  A pattern is
searched for in a text, unless it is anchored at one of its ends or at both.
-/

/-- The letters of a class lie in one of the ranges, or in none of them. -/
inductive Regex where
  | fail
  | empty
  | set (negated : Bool) (ranges : List (Char × Char))
  | alt (r r' : Regex)
  | seq (r r' : Regex)
  | star (r : Regex)
deriving DecidableEq, Repr

namespace Regex

def lit (c : Char) : Regex := .set false [(c, c)]

def any : Regex := .set true []

def plus (r : Regex) : Regex := .seq r (.star r)

def opt (r : Regex) : Regex := .alt r .empty

/-- The letters of a text, and what comes behind them. -/
def lits (cs : List Char) (r : Regex) : Regex := cs.foldr (fun c r ↦ .seq (lit c) r) r

def inSet (negated : Bool) (ranges : List (Char × Char)) (c : Char) : Bool :=
  (ranges.any fun range ↦ range.1 ≤ c && c ≤ range.2) != negated

/-! ## Languages -/

def language : Regex → Language Char
  | .fail => 0
  | .empty => 1
  | .set negated ranges => {w | ∃ c, w = [c] ∧ inSet negated ranges c = true}
  | .alt r r' => r.language + r'.language
  | .seq r r' => r.language * r'.language
  | .star r => KStar.kstar r.language

/-! ## Matching -/

def nullable : Regex → Bool
  | .fail | .set _ _ => false
  | .empty | .star _ => true
  | .alt r r' => r.nullable || r'.nullable
  | .seq r r' => r.nullable && r'.nullable

/-- What is left to match behind the letter `c`. -/
def deriv (c : Char) : Regex → Regex
  | .fail | .empty => .fail
  | .set negated ranges => if inSet negated ranges c then .empty else .fail
  | .alt r r' => .alt (r.deriv c) (r'.deriv c)
  | .seq r r' =>
      if r.nullable then .alt (.seq (r.deriv c) r') (r'.deriv c) else .seq (r.deriv c) r'
  | .star r => .seq (r.deriv c) (.star r)

/-- The whole text matches. -/
def rmatch (r : Regex) (text : List Char) : Bool := (text.foldl (fun r c ↦ r.deriv c) r).nullable

section

variable {r r' : Regex} {c : Char} {text : List Char}

theorem nullable_iff (r : Regex) : r.nullable = true ↔ [] ∈ r.language := by
  induction r with
  | fail => exact iff_of_false Bool.false_ne_true (Language.notMem_zero [])
  | empty => exact iff_of_true rfl Language.nil_mem_one
  | set negated ranges =>
    apply iff_of_false Bool.false_ne_true
    rintro ⟨c, hnil, -⟩
    cases hnil
  | alt r r' ih ih' =>
    show (r.nullable || r'.nullable) = true ↔ [] ∈ r.language + r'.language
    rw [Bool.or_eq_true, ih, ih', Language.mem_add]
  | seq r r' ih ih' =>
    show (r.nullable && r'.nullable) = true ↔ [] ∈ r.language * r'.language
    rw [Bool.and_eq_true, ih, ih', Language.mem_mul]
    constructor
    · rintro ⟨h, h'⟩
      exact ⟨[], h, [], h', rfl⟩
    · rintro ⟨a, ha, b, hb, hab⟩
      obtain ⟨rfl, rfl⟩ := List.append_eq_nil_iff.mp hab
      exact ⟨ha, hb⟩
  | star r _ => exact iff_of_true rfl (Language.nil_mem_kstar _)

/-- A word of a star that is not empty begins with one of the words. -/
theorem cons_mem_kstar {l : Language Char} :
    c :: text ∈ KStar.kstar l ↔
      ∃ a, c :: a ∈ l ∧ ∃ b ∈ KStar.kstar l, a ++ b = text := by
  constructor
  · intro h
    obtain ⟨words, hflatten, hwords⟩ := Language.mem_kstar_iff_exists_nonempty.mp h
    cases words with
    | nil => cases hflatten
    | cons word words =>
      obtain ⟨hword, hne⟩ := hwords word List.mem_cons_self
      cases word with
      | nil => exact absurd rfl hne
      | cons d a =>
        obtain ⟨rfl, htext⟩ := List.cons_eq_cons.mp hflatten
        refine ⟨a, hword, words.flatten, ?_, htext.symm⟩
        exact Language.mem_kstar.mpr ⟨words, rfl, fun y hy ↦
          (hwords y (List.mem_cons_of_mem _ hy)).1⟩
  · rintro ⟨a, ha, b, hb, rfl⟩
    obtain ⟨words, rfl, hwords⟩ := Language.mem_kstar.mp hb
    refine Language.mem_kstar.mpr ⟨(c :: a) :: words, rfl, fun y hy ↦ ?_⟩
    rcases List.mem_cons.mp hy with rfl | hy
    · exact ha
    · exact hwords y hy

theorem mem_deriv : text ∈ (r.deriv c).language ↔ c :: text ∈ r.language := by
  induction r generalizing text with
  | fail => exact iff_of_false (Language.notMem_zero _) (Language.notMem_zero _)
  | empty =>
    apply iff_of_false (Language.notMem_zero _)
    intro h
    cases Language.mem_one _ |>.mp h
  | set negated ranges =>
    have hset : c :: text ∈ (set negated ranges).language ↔
        text = [] ∧ inSet negated ranges c = true := by
      constructor
      · rintro ⟨d, heq, hd⟩
        obtain ⟨rfl, rfl⟩ := List.cons_eq_cons.mp heq
        exact ⟨rfl, hd⟩
      · rintro ⟨rfl, hc⟩
        exact ⟨c, rfl, hc⟩
    rw [hset, deriv]
    split
    · rename_i hc
      show text ∈ (1 : Language Char) ↔ _
      rw [Language.mem_one]
      exact (and_iff_left hc).symm
    · rename_i hc
      exact iff_of_false (Language.notMem_zero _) fun h ↦ hc h.2
  | alt r r' ih ih' =>
    show text ∈ (r.deriv c).language + (r'.deriv c).language ↔ _ ∈ r.language + r'.language
    rw [Language.mem_add, Language.mem_add, ih, ih']
  | seq r r' ih ih' =>
    have hmul : text ∈ (r.deriv c).language * r'.language ↔
        ∃ a, c :: a ∈ r.language ∧ ∃ b ∈ r'.language, a ++ b = text := by
      rw [Language.mem_mul]
      simp only [ih]
    -- the first part takes the character, or is empty and leaves it to the second
    have hseq : c :: text ∈ (seq r r').language ↔
        (∃ a, c :: a ∈ r.language ∧ ∃ b ∈ r'.language, a ++ b = text) ∨
          [] ∈ r.language ∧ c :: text ∈ r'.language := by
      show c :: text ∈ r.language * r'.language ↔ _
      rw [Language.mem_mul]
      constructor
      · rintro ⟨a, ha, b, hb, hab⟩
        cases a with
        | nil => exact .inr ⟨ha, hab ▸ hb⟩
        | cons d a =>
          obtain ⟨rfl, rfl⟩ := List.cons_eq_cons.mp hab
          exact .inl ⟨a, ha, b, hb, rfl⟩
      · rintro (⟨a, ha, b, hb, rfl⟩ | ⟨hnil, h⟩)
        · exact ⟨c :: a, ha, b, hb, rfl⟩
        · exact ⟨[], hnil, _, h, rfl⟩
    rw [hseq, deriv, ← nullable_iff]
    split
    · rename_i hnull
      show text ∈ (r.deriv c).language * r'.language + (r'.deriv c).language ↔ _
      rw [Language.mem_add, hmul, ih', and_iff_right hnull]
    · rename_i hnull
      show text ∈ (r.deriv c).language * r'.language ↔ _
      rw [hmul, or_iff_left fun h ↦ hnull h.1]
  | star r ih =>
    show text ∈ (r.deriv c).language * KStar.kstar r.language ↔ _ ∈ KStar.kstar r.language
    rw [cons_mem_kstar, Language.mem_mul]
    simp only [ih]

theorem rmatch_iff : r.rmatch text = true ↔ text ∈ r.language := by
  induction text generalizing r with
  | nil => exact nullable_iff r
  | cons c text ih =>
    show (r.deriv c).rmatch text = true ↔ _
    rw [ih, mem_deriv]

theorem mem_language_any : text ∈ any.language ↔ ∃ c, text = [c] := by
  constructor
  · rintro ⟨c, heq, -⟩
    exact ⟨c, heq⟩
  · rintro ⟨c, heq⟩
    exact ⟨c, heq, rfl⟩

theorem mem_language_lit : text ∈ (lit c).language ↔ text = [c] := by
  constructor
  · rintro ⟨d, rfl, hd⟩
    have hd : ((decide (c ≤ d) && decide (d ≤ c) || false) != false) = true := hd
    simp only [Bool.or_false, bne_iff_ne, ne_eq, Bool.not_eq_false, Bool.and_eq_true,
      decide_eq_true_eq] at hd
    rw [Char.le_antisymm hd.2 hd.1]
  · rintro rfl
    refine ⟨c, rfl, ?_⟩
    show ((decide (c ≤ c) && decide (c ≤ c) || false) != false) = true
    simp

/-- Every text is a sequence of letters. -/
theorem mem_language_star_any (text : List Char) : text ∈ (star any).language := by
  refine Language.mem_kstar.mpr ⟨text.map ([·]), ?_, fun y hy ↦ ?_⟩
  · rw [← List.flatMap_def, List.flatMap_singleton']
  · obtain ⟨c, -, rfl⟩ := List.mem_map.mp hy
    exact mem_language_any.mpr ⟨c, rfl⟩

theorem mem_language_lits {cs : List Char} :
    text ∈ (lits cs r).language ↔ ∃ rest ∈ r.language, cs ++ rest = text := by
  induction cs generalizing text with
  | nil => simp [lits]
  | cons c cs ih =>
    show text ∈ (lit c).language * (lits cs r).language ↔ _
    rw [Language.mem_mul]
    constructor
    · rintro ⟨a, ha, b, hb, rfl⟩
      obtain rfl := mem_language_lit.mp ha
      obtain ⟨rest, hrest, rfl⟩ := ih.mp hb
      exact ⟨rest, hrest, rfl⟩
    · rintro ⟨rest, hrest, rfl⟩
      exact ⟨[c], mem_language_lit.mpr rfl, cs ++ rest, ih.mpr ⟨rest, hrest, rfl⟩, rfl⟩

end

/-- The letters that every word begins with, as far as they can be read off. -/
def literalPrefix : Regex → List Char
  | .seq (.set false [(c, d)]) r => if c = d then c :: r.literalPrefix else []
  | _ => []

theorem literals_of_mem {r : Regex} {text : List Char} (h : text ∈ r.language) :
    r.literalPrefix <+: text := by
  induction r generalizing text with
  | seq first r _ ih =>
    unfold literalPrefix
    split
    · rename_i c d r' heq
      obtain ⟨rfl, rfl⟩ := Regex.seq.inj heq
      split
      · rename_i hcd
        subst hcd
        obtain ⟨a, ha, b, hb, rfl⟩ := Language.mem_mul.mp h
        obtain rfl := mem_language_lit.mp ha
        exact (List.prefix_cons_inj c).mpr (ih hb)
      · exact List.nil_prefix
    · exact List.nil_prefix
  | fail => exact List.nil_prefix
  | empty => exact List.nil_prefix
  | set negated ranges => exact List.nil_prefix
  | alt r r' _ _ => exact List.nil_prefix
  | star r _ => exact List.nil_prefix

/-! ## Patterns -/

/-- A pattern, and whether it begins and ends where the text does. -/
structure Pattern where
  start : Bool
  body : Regex
  stop : Bool
deriving DecidableEq, Repr

namespace Pattern

/-- What the whole text matches when the pattern is found in it. -/
def whole (p : Pattern) : Regex :=
  .seq (if p.start then .empty else .star any)
    (.seq p.body (if p.stop then .empty else .star any))

/-- `REG_EXTENDED`: the pattern is found somewhere in the text. -/
def search (p : Pattern) (text : List Char) : Bool := p.whole.rmatch text

variable {p : Pattern} {text : List Char}

theorem mem_margin {anchored : Bool} :
    text ∈ (if anchored then empty else star any).language ↔ (anchored = true → text = []) := by
  cases anchored with
  | true => exact (Language.mem_one text).trans ⟨fun h _ ↦ h, fun h ↦ h rfl⟩
  | false => exact iff_of_true (mem_language_star_any text) fun h ↦ absurd h Bool.false_ne_true

theorem search_iff :
    p.search text = true ↔
      ∃ before found behind, before ++ (found ++ behind) = text ∧ found ∈ p.body.language ∧
        (p.start = true → before = []) ∧ (p.stop = true → behind = []) := by
  have hwhole : p.search text = true ↔
      text ∈ (if p.start then empty else star any).language *
        (p.body.language * (if p.stop then empty else star any).language) :=
    rmatch_iff
  rw [hwhole, Language.mem_mul]
  constructor
  · rintro ⟨before, hbefore, rest, hrest, rfl⟩
    obtain ⟨found, hfound, behind, hbehind, rfl⟩ := Language.mem_mul.mp hrest
    exact ⟨before, found, behind, rfl, hfound, mem_margin.mp hbefore, mem_margin.mp hbehind⟩
  · rintro ⟨before, found, behind, rfl, hfound, hbefore, hbehind⟩
    refine ⟨before, mem_margin.mpr hbefore, found ++ behind, ?_, rfl⟩
    exact Language.mem_mul.mpr ⟨found, hfound, behind, mem_margin.mpr hbehind, rfl⟩

/-- A text the pattern is found in begins with the letters of the pattern. -/
theorem literalPrefix_of_search (hstart : p.start = true) (h : p.search text = true) :
    p.body.literalPrefix <+: text := by
  obtain ⟨before, found, behind, rfl, hfound, hbefore, -⟩ := search_iff.mp h
  rw [hbefore hstart, List.nil_append]
  exact (literals_of_mem hfound).trans (List.prefix_append found behind)

/-- Behind its letters anything is let in. -/
theorem search_lits_iff {cs : List Char} {r : Regex} {stop : Bool}
    (hr : ∀ rest : List Char, rest ∈ r.language) :
    Pattern.search ⟨true, lits cs r, stop⟩ text = true ↔ cs <+: text := by
  rw [search_iff]
  constructor
  · rintro ⟨before, found, behind, rfl, hfound, hbefore, -⟩
    obtain ⟨rest, -, rfl⟩ := mem_language_lits.mp hfound
    exact ⟨rest ++ behind, by rw [hbefore rfl, List.nil_append, List.append_assoc]⟩
  · rintro ⟨rest, rfl⟩
    refine ⟨[], cs ++ rest, [], ?_, mem_language_lits.mpr ⟨rest, hr rest, rfl⟩, ?_, ?_⟩
    · rw [List.nil_append, List.append_nil]
    · exact fun _ ↦ rfl
    · exact fun _ ↦ rfl

end Pattern

/-! ## The texts of patterns -/

/-- What has been read of a group: the alternatives before the last one, and the pieces of that,
the last piece first. -/
structure Group where
  finished : Option Regex
  pieces : List Regex

/-- Inside of what the next letter is read; a class has its ranges so far. -/
inductive Mode where
  | plain
  | escaped
  | classBegin
  | inClass (negated : Bool) (ranges : List (Char × Char))
  | inRange (negated : Bool) (ranges : List (Char × Char)) (low : Char)
  | bounds (low : Nat) (high : Option Nat)

structure Reader where
  group : Group
  outer : List Group
  mode : Mode

namespace Group

def regex (g : Group) : Regex :=
  let last := g.pieces.foldl (fun r piece ↦ .seq piece r) .empty
  match g.finished with
  | none => last
  | some r => .alt r last

def add (g : Group) (piece : Regex) : Group := { g with pieces := piece :: g.pieces }

/-- The last piece is repeated. -/
def mapLast (g : Group) (f : Regex → Regex) : Option Group :=
  match g.pieces with
  | [] => none
  | piece :: pieces => some { g with pieces := f piece :: pieces }

end Group

/-- From `low` to `high` times. -/
def times (low high : Nat) (r : Regex) : Regex :=
  (List.replicate low r ++ List.replicate (high - low) (opt r)).foldr .seq .empty

namespace Reader

def digit? (c : Char) : Option Nat :=
  if c.isDigit then some (c.toNat - '0'.toNat) else none

def repeated (reader : Reader) (f : Regex → Regex) : Option Reader :=
  (reader.group.mapLast f).map fun group ↦ { reader with group, mode := .plain }

def add (reader : Reader) (piece : Regex) : Reader :=
  { reader with group := reader.group.add piece, mode := .plain }

def plainStep (reader : Reader) : Char → Option Reader
  | '(' => some { reader with group := ⟨none, []⟩, outer := reader.group :: reader.outer }
  | ')' =>
      match reader.outer with
      | [] => none
      | group :: outer => some { reader with group := group.add reader.group.regex, outer }
  | '|' =>
      -- outside of the groups an alternative has anchors of its own
      if reader.outer.isEmpty then none
      else some { reader with group := ⟨some reader.group.regex, []⟩ }
  | '*' => reader.repeated .star
  | '+' => reader.repeated .plus
  | '?' => reader.repeated .opt
  | '\x7b' => some { reader with mode := .bounds 0 none }
  | '\\' => some { reader with mode := .escaped }
  | '[' => some { reader with mode := .classBegin }
  | '.' => some (reader.add any)
  | c => some (reader.add (lit c))

def step (reader : Reader) (c : Char) : Option Reader :=
  match reader.mode with
  | .plain => reader.plainStep c
  | .escaped => some (reader.add (lit c))
  | .classBegin =>
      some { reader with mode := if c = '^' then .inClass true [] else .inClass false [(c, c)] }
  | .inClass negated ranges =>
      -- a bracket ends the class unless it comes first
      if c = ']' ∧ ranges ≠ [] then some (reader.add (.set negated ranges.reverse))
      else
        match c, ranges with
        | '-', (low, _) :: ranges => some { reader with mode := .inRange negated ranges low }
        | c, ranges => some { reader with mode := .inClass negated ((c, c) :: ranges) }
  | .inRange negated ranges low =>
      if c = ']' then
        some (reader.add (.set negated (((low, low) :: ranges).reverse ++ [('-', '-')])))
      else some { reader with mode := .inClass negated ((low, c) :: ranges) }
  | .bounds low none =>
      if c = '\x7d' then reader.repeated (times low low)
      else if c = ',' then some { reader with mode := .bounds low (some 0) }
      else (digit? c).map fun d ↦ { reader with mode := .bounds (10 * low + d) none }
  | .bounds low (some high) =>
      if c = '\x7d' then if low ≤ high then reader.repeated (times low high) else none
      else (digit? c).map fun d ↦ { reader with mode := .bounds low (some (10 * high + d)) }

def finish (reader : Reader) : Option Regex :=
  match reader.outer, reader.mode with
  | [], .plain => some reader.group.regex
  | _, _ => none

end Reader

/-- The text of an extended regular expression between its anchors. -/
def ofText (text : List Char) : Option Regex :=
  (text.foldlM Reader.step ⟨⟨none, []⟩, [], .plain⟩).bind Reader.finish

namespace Pattern

/-- Without the dollar at the end, unless that is escaped. -/
def dropDollar (text : List Char) : List Char × Bool :=
  match text.reverse with
  | '$' :: '\\' :: _ => (text, false)
  | '$' :: rest => (rest.reverse, true)
  | _ => (text, false)

def ofText (text : List Char) : Option Pattern :=
  let (start, rest) :=
    match text with
    | '^' :: rest => (true, rest)
    | _ => (false, text)
  let (body, stop) := dropDollar rest
  (Regex.ofText body).map fun body ↦ ⟨start, body, stop⟩

example : (ofText "^/metric(/|/([^/]+))\x7b0,1\x7d$".toList).map (·.search "/metric/load".toList) =
    some true := by
  decide +kernel

end Pattern

end Regex
