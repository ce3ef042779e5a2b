import AsmVariants.Proofs.Candidates
import AsmVariants.Proofs.List

/-!
# `AsmVariants.Proofs.Candidates.Grammar`: how an annotation is written

`Candidates.onLine?` finds the list of a placeholder by four searches: for the segment, for the
token, for the equals sign, and for the values. `Lists` says what such a line looks like, without
searching: where the segment lies in the line, the token and the equals sign in the segment, and the
values in what follows. `onLine?_eq_some_iff_lists` says that the searches find a list exactly if
the line is written so.

Each search has a lemma of its own:

* `find?_occursIn_splitOn_iff` for the segment: no occurrence stands before it.
* `findSome?_valueText?_eq_some_iff` for the token and the equals sign: they stand nowhere before,
  not even as part of other text. A token holds its percent sign at the front only, so the places
  at which a token and an equals sign stand cannot overlap (`prefix_of_append_token`).
* `trim_eq_iff_trimmed` for the white space around the values.
-/

set_option autoImplicit false

namespace AsmVariants.Proofs

open Placeholder (startsWithDigit)

/-! ### What such a line looks like

A segment is told by what stands on both sides of it, and trimming by what is left out at both ends.
Neither says how it is found. -/

/-- A stretch of a line from one semicolon, or from the start, to the next one, or to the end. -/
structure IsSegment (line before segment after : Text) : Prop where
  line_eq : line = before ++ (segment ++ after)
  before_ends : before = [] ∨ before.getLast? = some ';'
  after_begins : after = [] ∨ after.head? = some ';'
  semicolon_notMem : ';' ∉ segment

/-- A text without the white space around it. -/
structure Trimmed (t core : Text) : Prop where
  padded : ∃ left right : Text, t = left ++ (core ++ right) ∧
    (∀ c ∈ left, Text.isBlank c) ∧ ∀ c ∈ right, Text.isBlank c
  head_not_blank : ∀ c ∈ core.head?, Text.isBlank c = false
  last_not_blank : ∀ c ∈ core.getLast?, Text.isBlank c = false

/-- A line that lists values for a placeholder. -/
inductive Lists (p : Placeholder) (line : Text) (values : List Text) : Prop
  | intro {before segment after lead listed core : Text}
      (isSegment : IsSegment line before segment after)
      (first : p.occursIn before = false)
      (introduced : segment = lead ++ (p.token ++ '=' :: listed))
      (not_before : ¬ p.token ++ ['='] <:+: lead)
      (trimmed : Trimmed listed core)
      (core_ne_nil : core ≠ [])
      (values_ne_nil : values ≠ [])
      (comma_notMem : ∀ value ∈ values, ',' ∉ value)
      (joined : [','].intercalate values = core)

/-! ### The segment

The segments in front of one, each with its semicolon, make up the text in front of it. So a search
through the segments is a search through that text. -/

/-- A stretch of a line is a segment exactly if cutting the line gives it, and the segments before
and behind it make up the rest of the line. -/
theorem isSegment_iff {line before segment after : Text} :
    IsSegment line before segment after ↔ ∃ front back,
      line.splitOn ';' = front ++ segment :: back ∧
        before = front.flatMap (· ++ [';']) ∧ after = back.flatMap (';' :: ·) := by
  constructor
  · -- The two cuts are made one by one: in front of the segment, where the line begins or a
    -- semicolon ends what is before it, and behind it, where a semicolon begins what is after it.
    rintro ⟨rfl, hbefore, hafter, hsegment⟩
    obtain ⟨front, hfront, hahead⟩ : ∃ front, (∀ rest : Text,
        (before ++ rest).splitOn ';' = front ++ rest.splitOn ';') ∧
        before = front.flatMap (· ++ [';']) := by
      rcases hbefore with rfl | hlast
      · exact ⟨[], fun _ => rfl, rfl⟩
      · obtain ⟨t, rfl⟩ := List.getLast?_eq_some_iff.mp hlast
        have hcut : ∀ rest : Text,
            (t ++ [';'] ++ rest).splitOn ';' = t.splitOn ';' ++ rest.splitOn ';' := by
          intro rest
          rw [List.append_assoc, List.singleton_append, List.splitOn_append_cons_self]
        have hjoin : [';'].intercalate ((t ++ [';'] ++ []).splitOn ';') = t ++ [';'] ++ [] :=
          List.intercalate_splitOn ';'
        rw [hcut, List.splitOn_nil, intercalate_append_cons] at hjoin
        refine ⟨t.splitOn ';', hcut, ?_⟩
        simpa using hjoin.symm
    obtain ⟨back, hback, hbehind⟩ : ∃ back, (segment ++ after).splitOn ';' = segment :: back ∧
        after = back.flatMap (';' :: ·) := by
      rcases hafter with rfl | hhead
      · exact ⟨[], by rw [List.append_nil, List.splitOn_eq_singleton hsegment], rfl⟩
      · obtain ⟨t, rfl⟩ := List.head?_eq_some_iff.mp hhead
        have hcut := List.splitOn_append_cons_self_of_not_mem hsegment t
        have hjoin : [';'].intercalate ((segment ++ ';' :: t).splitOn ';') = segment ++ ';' :: t :=
          List.intercalate_splitOn ';'
        rw [hcut, intercalate_cons] at hjoin
        exact ⟨t.splitOn ';', hcut, (List.append_cancel_left hjoin).symm⟩
    exact ⟨front, back, by rw [hfront, hback], hahead, hbehind⟩
  · -- Joining what a line was cut into gives the line back.
    rintro ⟨front, back, hline, rfl, rfl⟩
    refine ⟨?_, ?_, ?_, notMem_of_mem_splitOn (t := line) (by simp [hline])⟩
    · rw [← intercalate_append_cons, ← hline, List.intercalate_splitOn]
    · rcases List.eq_nil_or_concat front with rfl | ⟨others, last, rfl⟩
      · exact .inl rfl
      · right
        simp
    · cases back with
      | nil => exact .inl rfl
      | cons next back => exact .inr rfl

/-- A semicolon is part of no token, so an occurrence in segments is one in a segment. -/
theorem occursIn_flatMap_semicolon (p : Placeholder) (parts : List Text) :
    p.occursIn (parts.flatMap (· ++ [';'])) = parts.any p.occursIn := by
  induction parts with
  | nil => rfl
  | cons part parts ih =>
    have hpercent : '%' ∉ [';'] := by decide
    rw [List.flatMap_cons, List.append_assoc, occursIn_append_of_startsWithDigit rfl,
      occursIn_append p _ hpercent, ih, List.any_cons]

/-- The first segment in which a placeholder occurs is one before which it does not occur. -/
theorem find?_occursIn_splitOn_iff {p : Placeholder} {line segment : Text} :
    (line.splitOn ';').find? p.occursIn = some segment ↔ ∃ before after,
      IsSegment line before segment after ∧ p.occursIn before = false ∧ p.occursIn segment := by
  rw [List.find?_eq_some_iff_append]
  constructor
  · -- A semicolon is no part of a token, so the placeholder occurs in what is before the segment
    -- exactly if it occurs in one of the segments there.
    rintro ⟨hsegment, front, back, hline, hfront⟩
    refine ⟨_, _, isSegment_iff.mpr ⟨front, back, hline, rfl, rfl⟩, ?_, hsegment⟩
    rw [occursIn_flatMap_semicolon, List.any_eq_false]
    intro part hpart
    simpa using hfront part hpart
  · rintro ⟨before, after, isSegment, hbefore, hsegment⟩
    obtain ⟨front, back, hline, rfl, -⟩ := isSegment_iff.mp isSegment
    rw [occursIn_flatMap_semicolon, List.any_eq_false] at hbefore
    refine ⟨hsegment, front, back, hline, fun part hpart => ?_⟩
    simpa using hbefore part hpart

/-! ### The token and the equals sign

The token can stand in the segment without an equals sign behind it, and then the search goes on.
The induction is on the segment, character by character. -/

/-- A token with an equals sign behind it does not overlap with a token that begins later. -/
theorem prefix_of_append_token {p : Placeholder} {lead rest after : Text} (hlead : lead ≠ [])
    (h : p.token ++ '=' :: after = lead ++ (p.token ++ rest)) : p.token ++ ['='] <+: lead := by
  rw [List.append_cons] at h
  rcases List.append_eq_append_iff.mp h with ⟨more, hmore, -⟩ | ⟨more, hmore, hrest⟩
  · exact ⟨more, hmore.symm⟩
  · cases more with
    | nil => exact ⟨[], by rw [List.append_nil, hmore, List.append_nil]⟩
    | cons c more =>
      -- The later token would begin with its percent sign among the digits of the first one.
      exfalso
      obtain rfl : '%' = c := (List.cons.inj hrest).1
      cases lead with
      | nil => exact hlead rfl
      | cons d lead =>
        have htail : p.digits ++ ['='] = lead ++ '%' :: more := (List.cons.inj hmore).2
        have hmem : '%' ∈ p.digits ++ ['='] := by simp [htail]
        rcases List.mem_append.mp hmem with hmem | hmem
        · exact percent_notMem_digits p hmem
        · exact absurd hmem (by decide)

/-- The text that an equals sign introduces directly behind the placeholder. -/
theorem textAfter?_bind_valueText?_eq_some_iff {p : Placeholder} {t listed : Text} :
    (p.textAfter? t).bind Candidates.valueText? = some listed ↔
      t = p.token ++ '=' :: listed := by
  rw [Option.bind_eq_some_iff]
  constructor
  · rintro ⟨rest, hrest, hvalue⟩
    obtain rfl := valueText?_eq_some_iff.mp hvalue
    exact (textAfter?_eq_some_iff.mp hrest).1.symm
  · rintro rfl
    exact ⟨'=' :: listed, textAfter?_eq_some_iff.mpr ⟨rfl, rfl⟩, rfl⟩

/-- The search at the front of a segment comes before the search in the rest of it. -/
theorem findSome?_textsAfter_cons (p : Placeholder) (c : Char) (t : Text) :
    (p.textsAfter (c :: t)).findSome? Candidates.valueText? =
      ((p.textAfter? (c :: t)).bind Candidates.valueText?).or
        ((p.textsAfter t).findSome? Candidates.valueText?) := by
  rw [Placeholder.textsAfter]
  cases p.textAfter? (c :: t) with
  | none => rfl
  | some rest =>
    rw [List.findSome?_cons, Option.bind_some]
    cases Candidates.valueText? rest <;> rfl

/-- The values are introduced where the token and an equals sign stand for the first time. -/
theorem findSome?_valueText?_eq_some_iff {p : Placeholder} {segment listed : Text} :
    (p.textsAfter segment).findSome? Candidates.valueText? = some listed ↔
      ∃ lead, segment = lead ++ (p.token ++ '=' :: listed) ∧ ¬ p.token ++ ['='] <:+: lead := by
  induction segment with
  | nil => simp [Placeholder.textsAfter, Placeholder.token]
  | cons c t ih =>
    rw [findSome?_textsAfter_cons]
    cases hhere : (p.textAfter? (c :: t)).bind Candidates.valueText? with
    | some first =>
      -- The token and an equals sign stand at the front, so nothing is in front of them.
      have hfirst := textAfter?_bind_valueText?_eq_some_iff.mp hhere
      rw [Option.some_or, Option.some.injEq]
      constructor
      · rintro rfl
        exact ⟨[], hfirst, by simp [Placeholder.token]⟩
      · rintro ⟨lead, hlead, hinfix⟩
        by_cases hnil : lead = []
        · subst hnil
          have hsame := List.append_cancel_left (hfirst.symm.trans hlead)
          exact (List.cons.inj hsame).2
        · exact absurd (prefix_of_append_token hnil (hfirst.symm.trans hlead)).isInfix hinfix
    | none =>
      -- They do not, so the character at the front belongs to what is in front of them.
      have hnot : ∀ after, c :: t ≠ p.token ++ '=' :: after := by
        intro after heq
        exact Option.some_ne_none after
          ((textAfter?_bind_valueText?_eq_some_iff.mpr heq).symm.trans hhere)
      rw [Option.none_or, ih]
      constructor
      · rintro ⟨lead, rfl, hinfix⟩
        refine ⟨c :: lead, rfl, fun hlead => ?_⟩
        rcases List.infix_cons_iff.mp hlead with ⟨more, hmore⟩ | hlead
        · -- The token and an equals sign do not stand at the front.
          apply hnot (more ++ (p.token ++ '=' :: listed))
          rw [← List.cons_append, ← hmore]
          simp
        · exact hinfix hlead
      · rintro ⟨lead, hlead, hinfix⟩
        cases lead with
        | nil => exact absurd hlead (hnot listed)
        | cons d lead =>
          obtain ⟨rfl, rfl⟩ := List.cons.inj hlead
          exact ⟨lead, rfl, fun h => hinfix (List.infix_cons h)⟩

/-! ### The values -/

/-- Trimming takes all the white space off both ends, and nothing else. -/
theorem trim_eq_iff_trimmed {t core : Text} : Text.trim t = core ↔ Trimmed t core := by
  constructor
  · rintro rfl
    have hinner : (t.dropWhile Text.isBlank).rdropWhile Text.isBlank ++
        (t.dropWhile Text.isBlank).rtakeWhile Text.isBlank = t.dropWhile Text.isBlank :=
      List.rdropWhile_append_rtakeWhile
    refine ⟨⟨t.takeWhile Text.isBlank, (t.dropWhile Text.isBlank).rtakeWhile Text.isBlank,
      ?_, fun c => List.mem_takeWhile_imp, fun c => List.mem_rtakeWhile_imp⟩, ?_, ?_⟩
    · show t = _ ++ ((t.dropWhile Text.isBlank).rdropWhile Text.isBlank ++ _)
      rw [hinner, List.takeWhile_append_dropWhile]
    · intro c hc
      -- What is left begins where white space at the front has come to its end.
      obtain ⟨rest, hrest⟩ :=
        List.rdropWhile_prefix Text.isBlank (l := t.dropWhile Text.isBlank)
      obtain ⟨more, hmore⟩ := List.head?_eq_some_iff.mp hc
      have hhead := List.head?_dropWhile_not Text.isBlank t
      rw [← hrest, show (t.dropWhile Text.isBlank).rdropWhile Text.isBlank = c :: more from hmore]
        at hhead
      exact hhead
    · intro c hc
      obtain ⟨hne, rfl⟩ := List.mem_getLast?_eq_getLast hc
      exact isBlank_getLast_trim hne
  · rintro ⟨⟨left, right, rfl, hleft, hright⟩, hhead, hlast⟩
    have hfront : core.dropWhile Text.isBlank = core := by
      cases core with
      | nil => rfl
      | cons c core => exact List.dropWhile_cons_of_neg (by simp [hhead c rfl])
    have hend : Text.trimEnd core = core :=
      List.rdropWhile_eq_self_iff.mpr fun hne => by
        simp [hlast _ (List.getLast?_eq_getLast_of_ne_nil hne)]
    rw [← List.append_assoc, trim_append_blank hright, Text.trim,
      List.dropWhile_append_of_pos hleft, hfront, hend]

/-- The values are what stands between the commas. -/
theorem ofList?_eq_some_iff {listed : Text} {values : List Text} :
    Candidates.ofList? listed = some values ↔ ∃ core, Trimmed listed core ∧ core ≠ [] ∧
      values ≠ [] ∧ (∀ value ∈ values, ',' ∉ value) ∧ [','].intercalate values = core := by
  have hlist : Candidates.ofList? listed = some values ↔
      Text.trim listed ≠ [] ∧ (Text.trim listed).splitOn ',' = values := by
    rw [Candidates.ofList?]
    split
    · next hnil => simp [hnil]
    · next hne => simp [hne]
  rw [hlist]
  constructor
  · rintro ⟨hne, rfl⟩
    exact ⟨Text.trim listed, trim_eq_iff_trimmed.mp rfl, hne, List.splitOn_ne_nil ',' _,
      fun value hvalue => notMem_of_mem_splitOn hvalue, List.intercalate_splitOn ','⟩
  · rintro ⟨core, htrimmed, hne, hvalues, hcomma, rfl⟩
    rw [trim_eq_iff_trimmed.mpr htrimmed]
    exact ⟨hne, List.splitOn_intercalate ',' hcomma hvalues⟩

/-! ### The line -/

/-- A placeholder occurs where its token stands and no digit follows. -/
theorem occursIn_append_token (p : Placeholder) (before : Text) {after : Text}
    (h : startsWithDigit after = false) : p.occursIn (before ++ (p.token ++ after)) := by
  rw [occursIn_append_of_startsWithDigit (startsWithDigit_token_append p after),
    occursIn_token_append p p h, decide_eq_true rfl, Bool.true_or, Bool.or_true]

/-- What is read off a line is what the line lists. -/
theorem onLine?_eq_some_iff {p : Placeholder} {line : Text} {values : List Text} :
    Candidates.onLine? p line = some values ↔ Lists p line values := by
  -- The three steps of the reader are the three parts of the grammar: the segment, what is listed
  -- in it, and the values.
  have hsearch : Candidates.onLine? p line = some values ↔
      ∃ segment, (line.splitOn ';').find? p.occursIn = some segment ∧
        ∃ listed, (p.textsAfter segment).findSome? Candidates.valueText? = some listed ∧
          Candidates.ofList? listed = some values := by
    simp only [Candidates.onLine?, Option.bind_eq_bind, Option.bind_eq_some_iff]
  rw [hsearch]
  constructor
  · rintro ⟨segment, hsegment, listed, hlisted, hvalues⟩
    obtain ⟨before, after, isSegment, hfirst, -⟩ := find?_occursIn_splitOn_iff.mp hsegment
    obtain ⟨lead, hlead, hinfix⟩ := findSome?_valueText?_eq_some_iff.mp hlisted
    obtain ⟨core, htrimmed, hcore, hne, hcomma, hjoin⟩ := ofList?_eq_some_iff.mp hvalues
    exact .intro isSegment hfirst hlead hinfix htrimmed hcore hne hcomma hjoin
  · intro lists
    cases lists with
    | @intro before segment after lead listed core isSegment hfirst hlead hinfix htrimmed hcore
        hne hcomma hjoin =>
      have hoccurs : p.occursIn segment := by
        rw [hlead]
        exact occursIn_append_token p lead rfl
      exact ⟨segment, find?_occursIn_splitOn_iff.mpr ⟨before, after, isSegment, hfirst, hoccurs⟩,
        listed, findSome?_valueText?_eq_some_iff.mpr ⟨lead, hlead, hinfix⟩,
        ofList?_eq_some_iff.mpr ⟨core, htrimmed, hcore, hne, hcomma, hjoin⟩⟩

/-- A placeholder occurs in a line that lists values for it. -/
theorem occursIn_of_lists {p : Placeholder} {line : Text} {values : List Text}
    (h : Lists p line values) : p.occursIn line := by
  cases h with
  | @intro before segment after lead listed _ isSegment _ hlead =>
    rw [isSegment.line_eq, hlead, List.append_assoc, List.append_assoc, List.cons_append,
      ← List.append_assoc before]
    exact occursIn_append_token p (before ++ lead) rfl

/-- The lines that list values for a placeholder are those that are written so, and the values are
determined. Nothing is listed if the placeholder is mentioned in a segment without an equals sign
behind it, whatever is written in the segments that follow, and the values for another placeholder,
whose token may be longer, are not read. -/
theorem onLine?_eq_some_iff_lists (p : Placeholder) (line : Text) :
    (∀ values, Candidates.onLine? p line = some values ↔ Lists p line values) ∧
    (∀ values others, Lists p line values → Lists p line others → values = others) ∧
    (∀ before segment after, IsSegment line before segment after → p.occursIn before = false →
      p.occursIn segment → ¬ p.token ++ ['='] <:+: segment → Candidates.onLine? p line = none) ∧
    (∀ (q : Placeholder) (lead rest : Text), q ≠ p → line = lead ++ (q.token ++ '=' :: rest) →
      p.occursIn lead = false → p.occursIn rest = false →
        Candidates.onLine? p line = none) := by
  refine ⟨fun values => onLine?_eq_some_iff, ?_, ?_, ?_⟩
  · intro values others hvalues hothers
    have hsame : some values = some others :=
      (onLine?_eq_some_iff.mpr hvalues).symm.trans (onLine?_eq_some_iff.mpr hothers)
    exact Option.some.inj hsame
  · intro before segment after isSegment hbefore hsegment hinfix
    have hfirst := find?_occursIn_splitOn_iff.mpr ⟨before, after, isSegment, hbefore, hsegment⟩
    -- The search ends in this segment, where no equals sign follows the token.
    have hnone : (p.textsAfter segment).findSome? Candidates.valueText? = none := by
      rw [Option.eq_none_iff_forall_ne_some]
      intro listed hlisted
      obtain ⟨lead, hlead, -⟩ := findSome?_valueText?_eq_some_iff.mp hlisted
      exact hinfix ⟨lead, listed, by rw [hlead]; simp⟩
    rw [Candidates.onLine?, hfirst, Option.bind_eq_bind, Option.bind_some, hnone]
    rfl
  · rintro q lead rest hq rfl hlead hrest
    -- The placeholder occurs neither in front of the other token nor behind it, and the other token
    -- is not its own, so it does not occur in the line at all.
    have hpercent : '%' ∉ ['='] := by decide
    have hother : p.occursIn ('=' :: rest) = false :=
      (occursIn_append p rest hpercent).trans hrest
    rw [Option.eq_none_iff_forall_ne_some]
    intro values hvalues
    have hoccurs := occursIn_of_lists (onLine?_eq_some_iff.mp hvalues)
    rw [occursIn_append_of_startsWithDigit (startsWithDigit_token_append q _), hlead,
      occursIn_token_append p q rfl, hother, decide_eq_false hq] at hoccurs
    exact absurd hoccurs Bool.false_ne_true

/-- In the third segment, `%1=` stands behind another `%1`; the first two do not mention `%1`, and
the last is not read. -/
theorem onLine?_eq_some_iff_lists_thirdSegment :
    ∃ one twelve : Placeholder, one.token = "%1".toList ∧ twelve.token = "%12".toList ∧
      Candidates.onLine? one "; %12=al;%%1%1= ax,, bx\t;%1=cx".toList =
        some ["ax".toList, [], " bx".toList] ∧
      Candidates.onLine? one "; %1 =al;%1=bx".toList = none ∧
      Candidates.onLine? one "; %12=al".toList = none := by
  let one : Placeholder := ⟨['1'], by decide, by decide⟩
  let twelve : Placeholder := ⟨['1', '2'], by decide, by decide⟩
  have hlists : Lists one "; %12=al;%%1%1= ax,, bx\t;%1=cx".toList
      ["ax".toList, [], " bx".toList] :=
    @Lists.intro one _ _ "; %12=al;".toList "%%1%1= ax,, bx\t".toList ";%1=cx".toList "%%1".toList
      " ax,, bx\t".toList "ax,, bx".toList ⟨by decide, by decide, by decide, by decide⟩ (by decide)
      (by decide) (by decide) (trim_eq_iff_trimmed.mp (by decide)) (by decide) (by decide)
      (by decide) (by decide)
  have hbare : IsSegment "; %1 =al;%1=bx".toList ";".toList " %1 =al".toList ";%1=bx".toList :=
    ⟨by decide, by decide, by decide, by decide⟩
  obtain ⟨hread, -, -, -⟩ :=
    onLine?_eq_some_iff_lists one "; %12=al;%%1%1= ax,, bx\t;%1=cx".toList
  obtain ⟨-, -, hunread, -⟩ := onLine?_eq_some_iff_lists one "; %1 =al;%1=bx".toList
  obtain ⟨-, -, -, hlonger⟩ := onLine?_eq_some_iff_lists one "; %12=al".toList
  exact ⟨one, twelve, rfl, rfl, (hread _).mpr hlists,
    hunread _ _ _ hbare (by decide) (by decide) (by decide),
    hlonger twelve "; ".toList "al".toList (by decide) (by decide) (by decide) (by decide)⟩

end AsmVariants.Proofs
