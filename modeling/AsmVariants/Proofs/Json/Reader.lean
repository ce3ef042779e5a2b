import AsmVariants.Json.Reader
import AsmVariants.Proofs.Json.Token

/-!
# `AsmVariants.Proofs.Json.Reader`: what a JSON text denotes

`tokensOf` writes a document as tokens, and `Denotes` says that a text is the tokens of a document
laid out with white space. The reader takes tokens one by one, with a stack for what is not closed
yet. That it reads exactly what is written (`ofTokens?_eq_some_iff`) has two halves:

* `readAs_tokensOf`: the tokens of a document are read as the document, at any depth. The induction
  is on the document.
* `readTokens_step`: a reader remembers every token, since its stack holds all that is in front of
  the place where it is.

`ofText?_eq_some_iff` is the result for texts: reading a text and denoting a document are the same.
It puts the reader behind the lexer. The lexer reads what is laid out only if no two leaves are
neighbours, and a reader takes no two leaves in a row (`step_leaf_of_step_leaf`), so the tokens of a
document never are.
-/

set_option autoImplicit false

namespace AsmVariants.Proofs

open Json (Expectation Frame Reader Token)

/-! ### The tokens of a document

The equations are by constructor, and for arrays and objects also by the first and by the last item.
The reader adds an item at the end, while the tokens begin with the first. -/

/-- The tokens of a document. An array is its items in brackets, an object is its members in
braces, with commas in between, and a member is a key, a colon and a value. -/
def tokensOf : Json → List Token
  | .array items => .openArray :: [.comma].intercalate (items.map tokensOf) ++ [.closeArray]
  | .object members =>
    .openObject ::
      [.comma].intercalate (members.map fun member =>
        .leaf (.string member.1) :: .colon :: tokensOf member.2) ++ [.closeObject]
  | value => [.leaf value]
decreasing_by
  · decreasing_tactic
  · rename_i h
    have hmember := List.sizeOf_lt_of_mem h
    rcases member with ⟨key, value⟩
    simp only [Prod.mk.sizeOf_spec, Json.object.sizeOf_spec] at hmember ⊢
    omega

/-- The tokens of a member of an object. -/
def memberTokens (member : Option Text × Json) : List Token :=
  .leaf (.string member.1) :: .colon :: tokensOf member.2

/-- A document that is one token. -/
def IsScalar : Json → Prop
  | .array _ | .object _ => False
  | _ => True

section

variable {items : List Json} {members : List (Option Text × Json)} {value : Json}

/-- The tokens of an array, by those of its items. -/
theorem tokensOf_array (items : List Json) :
    tokensOf (.array items) =
      .openArray :: [.comma].intercalate (items.map tokensOf) ++ [.closeArray] := by
  rw [tokensOf]

/-- The tokens of an object, by those of its members. -/
theorem tokensOf_object (members : List (Option Text × Json)) :
    tokensOf (.object members) =
      .openObject :: [.comma].intercalate (members.map memberTokens) ++ [.closeObject] := by
  rw [tokensOf]
  rfl

/-- A value that is neither an array nor an object is a token by itself. -/
theorem tokensOf_of_isScalar (h : IsScalar value) : tokensOf value = [.leaf value] := by
  cases value with
  | array items => exact h.elim
  | object members => exact h.elim
  | _ => rw [tokensOf] <;> exact nofun

/-- An array with a first item. -/
theorem tokensOf_array_cons (items : List Json) (value : Json) :
    tokensOf (.array (value :: items)) =
      .openArray ::
        (tokensOf value ++ ((items.map tokensOf).flatMap (Token.comma :: ·) ++ [.closeArray])) := by
  rw [tokensOf_array, List.map_cons, intercalate_cons, List.cons_append, List.append_assoc]

/-- An object with a first member. -/
theorem tokensOf_object_cons (members : List (Option Text × Json)) (member : Option Text × Json) :
    tokensOf (.object (member :: members)) =
      .openObject ::
        (memberTokens member ++
          ((members.map memberTokens).flatMap (Token.comma :: ·) ++ [.closeObject])) := by
  rw [tokensOf_object, List.map_cons, intercalate_cons, List.cons_append, List.append_assoc]

/-- An array with a last item. -/
theorem tokensOf_array_concat (items : List Json) (value : Json) :
    tokensOf (.array (items ++ [value])) =
      .openArray :: (items.map tokensOf).flatMap (· ++ [Token.comma]) ++
        tokensOf value ++ [.closeArray] := by
  rw [tokensOf_array, List.map_append, List.map_singleton, intercalate_concat]
  rfl

/-- An object with a last member. -/
theorem tokensOf_object_concat (members : List (Option Text × Json))
    (member : Option Text × Json) :
    tokensOf (.object (members ++ [member])) =
      .openObject :: (members.map memberTokens).flatMap (· ++ [Token.comma]) ++
        memberTokens member ++ [.closeObject] := by
  rw [tokensOf_object, List.map_append, List.map_singleton, intercalate_concat]
  rfl

end

/-! ### What is written is read

`ReadAs` leaves open what stands around a value, so that it can be used for a value at any depth. -/

/-- The tokens are read as a value, wherever one may stand. -/
def ReadAs (tokens : List Token) (value : Json) : Prop :=
  ∀ around, tokens.foldlM Reader.step ⟨around, .value⟩ = some ⟨around, .behind value⟩

section

variable {around : List Frame} {token : Token}

/-- The first item of an array is read as a value. -/
theorem step_firstItem (h : token ≠ .closeArray) :
    Reader.step ⟨around, .firstItem⟩ token = Reader.step ⟨.array [] :: around, .value⟩ token := by
  cases token with
  | closeArray => exact absurd rfl h
  | _ => rfl

/-- The tokens of a value do not begin with the end of an array. -/
theorem exists_tokensOf_eq_cons (value : Json) :
    ∃ token rest, tokensOf value = token :: rest ∧ token ≠ .closeArray := by
  cases value with
  | array items => exact ⟨_, _, tokensOf_array items, nofun⟩
  | object members => exact ⟨_, _, tokensOf_object members, nofun⟩
  | _ => exact ⟨_, _, tokensOf_of_isScalar trivial, nofun⟩

/-- Behind an item, the rest of an array is read. -/
theorem foldlM_items {items : List Json} (h : ∀ item ∈ items, ReadAs (tokensOf item) item)
    (done : List Json) (value : Json) :
    ((items.map tokensOf).flatMap (Token.comma :: ·) ++ [Token.closeArray]).foldlM Reader.step
        ⟨.array done :: around, .behind value⟩ =
      some ⟨around, .behind (.array (done.reverse ++ value :: items))⟩ := by
  induction items generalizing done value with
  | nil => simp [Reader.step, Reader.stepBehind?]
  | cons item items ih =>
    rw [List.forall_mem_cons] at h
    have hcomma : Reader.step ⟨.array done :: around, .behind value⟩ .comma =
        some ⟨.array (value :: done) :: around, .value⟩ := rfl
    rw [List.map_cons, List.flatMap_cons, List.append_assoc, List.cons_append,
      foldlM_cons_of_eq_some hcomma, foldlM_append_of_eq_some (h.1 _), ih h.2, List.reverse_cons,
      List.append_assoc]
    rfl

/-- A member is read, if its key is. -/
theorem foldlM_memberTokens {member : Option Text × Json}
    (h : ReadAs (tokensOf member.2) member.2) {next : Expectation}
    {members : List (Option Text × Json)}
    (hkey : Reader.step ⟨around, next⟩ (.leaf (.string member.1)) =
      some ⟨around, .colon members member.1⟩) :
    (memberTokens member).foldlM Reader.step ⟨around, next⟩ =
      some ⟨.object members member.1 :: around, .behind member.2⟩ := by
  have hcolon : Reader.step ⟨around, .colon members member.1⟩ .colon =
      some ⟨.object members member.1 :: around, .value⟩ := rfl
  rw [memberTokens, foldlM_cons_of_eq_some hkey, foldlM_cons_of_eq_some hcolon]
  exact h _

/-- Behind a member, the rest of an object is read. -/
theorem foldlM_members {members : List (Option Text × Json)}
    (h : ∀ member ∈ members, ReadAs (tokensOf member.2) member.2)
    (done : List (Option Text × Json)) (last : Option Text × Json) :
    ((members.map memberTokens).flatMap (Token.comma :: ·) ++ [Token.closeObject]).foldlM
        Reader.step ⟨.object done last.1 :: around, .behind last.2⟩ =
      some ⟨around, .behind (.object (done.reverse ++ last :: members))⟩ := by
  induction members generalizing done last with
  | nil => simp [Reader.step, Reader.stepBehind?]
  | cons member members ih =>
    rw [List.forall_mem_cons] at h
    have hcomma : Reader.step ⟨.object done last.1 :: around, .behind last.2⟩ .comma =
        some ⟨around, .nextKey (last :: done)⟩ := rfl
    rw [List.map_cons, List.flatMap_cons, List.append_assoc, List.cons_append,
      foldlM_cons_of_eq_some hcomma,
      foldlM_append_of_eq_some (foldlM_memberTokens h.1 rfl), ih h.2, List.reverse_cons,
      List.append_assoc]
    rfl

end

/-- The tokens of a document are read as the document. -/
theorem readAs_tokensOf (document : Json) : ReadAs (tokensOf document) document := by
  induction document using tokensOf.induct with
  | case1 items ih =>
    intro around
    have hopen : Reader.step ⟨around, .value⟩ .openArray = some ⟨around, .firstItem⟩ := rfl
    cases items with
    | nil =>
      rw [tokensOf_array]
      rfl
    | cons item items =>
      rw [List.forall_mem_cons] at ih
      -- The first item is read as any value is, because its first token is not the closing bracket.
      have hfirst : (tokensOf item).foldlM Reader.step ⟨around, .firstItem⟩ =
          some ⟨.array [] :: around, .behind item⟩ := by
        obtain ⟨token, rest, htokens, hne⟩ := exists_tokensOf_eq_cons item
        rw [← ih.1, htokens, List.foldlM_cons, List.foldlM_cons, step_firstItem hne]
      rw [tokensOf_array_cons, foldlM_cons_of_eq_some hopen, foldlM_append_of_eq_some hfirst]
      exact foldlM_items ih.2 [] item
  | case2 members ih =>
    intro around
    have hopen : Reader.step ⟨around, .value⟩ .openObject = some ⟨around, .firstKey⟩ := rfl
    cases members with
    | nil =>
      rw [tokensOf_object]
      rfl
    | cons member members =>
      rw [List.forall_mem_cons] at ih
      rw [tokensOf_object_cons, foldlM_cons_of_eq_some hopen,
        foldlM_append_of_eq_some (foldlM_memberTokens ih.1 rfl)]
      exact foldlM_members ih.2 [] member
  | case3 value no_array no_object =>
    intro around
    rw [tokensOf]
    · rfl
    · exact no_array
    · exact no_object

/-! ### What is read is written

`readTokens` is an inverse of the reader: the tokens that are held in its stack, from the outermost
frame to the innermost, and then those of the place where it is. -/

/-- The tokens of an object in front of a key. -/
def tokensInFront (members : List (Option Text × Json)) : List Token :=
  .openObject :: (members.reverse.map memberTokens).flatMap (· ++ [.comma])

/-- The tokens of an array or object in front of a value that is to come. -/
def frameTokens : Frame → List Token
  | .array items => .openArray :: (items.reverse.map tokensOf).flatMap (· ++ [.comma])
  | .object members key => tokensInFront members ++ [.leaf (.string key), .colon]

/-- The last tokens, behind those of the frames. -/
def lastTokens : Expectation → List Token
  | .value => []
  | .firstItem => [.openArray]
  | .firstKey => [.openObject]
  | .nextKey members => tokensInFront members
  | .colon members key => tokensInFront members ++ [.leaf (.string key)]
  | .behind value => tokensOf value

/-- The tokens of all that is not closed yet, outermost first. -/
def aroundTokens (around : List Frame) : List Token := around.reverse.flatMap frameTokens

/-- The tokens that a reader has read. It remembers all of them. -/
def readTokens (reader : Reader) : List Token :=
  aroundTokens reader.around ++ lastTokens reader.next

/-- If a token holds a document, the document is one token. -/
def IsSingle (token : Token) : Prop := ∀ value, token = .leaf value → IsScalar value

section

variable {around : List Frame} {token : Token} {reader next : Reader}

/-- The innermost frame is the last that was opened. -/
theorem aroundTokens_cons (frame : Frame) (around : List Frame) :
    aroundTokens (frame :: around) = aroundTokens around ++ frameTokens frame := by
  simp [aroundTokens]

/-- A token that begins a value is remembered behind those of the frames. -/
theorem readTokens_stepValue? (single : IsSingle token)
    (h : Reader.stepValue? around token = some next) :
    readTokens next = aroundTokens around ++ [token] := by
  cases token with
  | leaf value =>
    obtain rfl := Option.some.inj h
    rw [readTokens, lastTokens, tokensOf_of_isScalar (single value rfl)]
  | openArray | openObject =>
    obtain rfl := Option.some.inj h
    rfl
  | _ => exact nomatch h

/-- A key is remembered behind the members in front of it. -/
theorem readTokens_stepKey? {members : List (Option Text × Json)}
    (h : Reader.stepKey? around members token = some next) :
    readTokens next = aroundTokens around ++ tokensInFront members ++ [token] := by
  unfold Reader.stepKey? at h
  split at h
  · obtain rfl := Option.some.inj h
    rw [readTokens, lastTokens, List.append_assoc]
  · exact nomatch h

/-- A token behind a value is remembered. A comma goes on with the frame, and a bracket or brace
closes it, which makes all its tokens those of a value. -/
theorem readTokens_stepBehind? {value : Json}
    (h : Reader.stepBehind? value around token = some next) :
    readTokens next = aroundTokens around ++ tokensOf value ++ [token] := by
  unfold Reader.stepBehind? at h
  -- A comma in an array, its closing bracket, a comma in an object and its closing brace. Nothing
  -- else can stand behind a value.
  split at h
  · obtain rfl := Option.some.inj h
    simp [readTokens, lastTokens, aroundTokens_cons, frameTokens]
  · obtain rfl := Option.some.inj h
    simp only [readTokens, lastTokens, aroundTokens_cons, frameTokens, List.reverse_cons,
      tokensOf_array_concat, List.append_assoc]
  · obtain rfl := Option.some.inj h
    simp [readTokens, lastTokens, aroundTokens_cons, frameTokens, tokensInFront, memberTokens]
  · obtain rfl := Option.some.inj h
    simp [readTokens, lastTokens, aroundTokens_cons, frameTokens, tokensInFront, memberTokens,
      tokensOf_object_concat]
  · exact nomatch h

/-- A reader remembers a token behind the others. -/
theorem readTokens_step (single : IsSingle token) (h : reader.step token = some next) :
    readTokens next = readTokens reader ++ [token] := by
  -- Where an array or an object may end at once, its end is told from its first value or key.
  rcases reader with ⟨around, expectation⟩
  cases expectation with
  | value => simpa [readTokens, lastTokens] using readTokens_stepValue? single h
  | firstItem =>
    by_cases hclose : token = .closeArray
    · subst hclose
      obtain rfl := Option.some.inj h
      simp [readTokens, lastTokens, tokensOf_array]
    · rw [step_firstItem hclose] at h
      simpa [readTokens, lastTokens, aroundTokens_cons, frameTokens] using
        readTokens_stepValue? single h
  | firstKey =>
    by_cases hclose : token = .closeObject
    · subst hclose
      obtain rfl := Option.some.inj h
      simp [readTokens, lastTokens, tokensOf_object]
    · have hkey : Reader.stepKey? around [] token = some next := by
        cases token with
        | closeObject => exact absurd rfl hclose
        | _ => exact h
      simpa [readTokens, lastTokens, tokensInFront] using readTokens_stepKey? hkey
  | nextKey members => simpa [readTokens, lastTokens] using readTokens_stepKey? h
  | colon members key =>
    cases token with
    | colon =>
      obtain rfl := Option.some.inj h
      simp [readTokens, lastTokens, aroundTokens_cons, frameTokens]
    | _ => exact nomatch h
  | behind value => simpa [readTokens, lastTokens] using readTokens_stepBehind? h

end

/-- A reader has a document at the end if it is behind one and nothing is open. -/
theorem finish?_eq_some_iff {reader : Reader} {document : Json} :
    reader.finish? = some document ↔ reader = ⟨[], .behind document⟩ := by
  rcases reader with ⟨around, next⟩
  cases around <;> cases next <;> simp [Reader.finish?]

/-- A reader remembers all the tokens that it has read, in their order. -/
theorem readTokens_foldlM {tokens : List Token} (single : ∀ token ∈ tokens, IsSingle token)
    {reader next : Reader} (h : tokens.foldlM Reader.step reader = some next) :
    readTokens next = readTokens reader ++ tokens := by
  induction tokens generalizing reader with
  | nil =>
    obtain rfl := Option.some.inj h
    rw [List.append_nil]
  | cons token tokens ih =>
    rw [List.forall_mem_cons] at single
    rw [List.foldlM_cons, Option.bind_eq_bind, Option.bind_eq_some_iff] at h
    obtain ⟨middle, hstep, hrest⟩ := h
    rw [ih single.2 hrest, readTokens_step single.1 hstep, List.append_assoc]
    rfl

/-- Tokens are read as a document exactly if they are its tokens. -/
theorem ofTokens?_eq_some_iff {tokens : List Token} (single : ∀ token ∈ tokens, IsSingle token)
    {document : Json} : Json.ofTokens? tokens = some document ↔ tokens = tokensOf document := by
  rw [Json.ofTokens?, Option.bind_eq_some_iff]
  constructor
  · rintro ⟨reader, hread, hfinish⟩
    obtain rfl := finish?_eq_some_iff.mp hfinish
    have h := readTokens_foldlM single hread
    simpa [readTokens, aroundTokens, Reader.start, lastTokens] using h.symm
  · rintro rfl
    exact ⟨_, readAs_tokensOf document [], rfl⟩

/-! ### Texts

The lexer and the reader each have their own notion of what is written, and the two meet in the list
of tokens. What has to be shown besides is that the tokens of a document are fit for the lexer. -/

section

variable {reader next : Reader} {tokens : List Token} {t : Text} {document : Json}

/-- No document stands right behind another one. -/
theorem step_leaf_of_step_leaf {value other : Json} (h : reader.step (.leaf value) = some next) :
    next.step (.leaf other) = none := by
  -- Behind a leaf the reader waits for a mark: one that goes on with the frame, or the colon behind
  -- a key.
  have hbehind (value : Json) (around : List Frame) :
      Reader.step ⟨around, .behind value⟩ (.leaf other) = none := by
    cases around with
    | nil => rfl
    | cons frame around => cases frame <;> rfl
  have hkey {around : List Frame} {members : List (Option Text × Json)}
      (h : Reader.stepKey? around members (.leaf value) = some next) :
      next.step (.leaf other) = none := by
    unfold Reader.stepKey? at h
    split at h
    · obtain rfl := Option.some.inj h
      rfl
    · exact nomatch h
  rcases reader with ⟨around, expectation⟩
  cases expectation with
  | value | firstItem =>
    obtain rfl := Option.some.inj h
    exact hbehind value _
  | firstKey | nextKey => exact hkey h
  | colon => exact nomatch h
  | behind before =>
    cases around with
    | nil => exact nomatch h
    | cons frame around => cases frame <;> exact nomatch h

/-- Of two neighbours among the tokens, one is a mark, and behind a leaf the reader takes no other
leaf. -/
structure TakenApart (reader : Reader) (tokens : List Token) : Prop where
  separate : AllSeparate tokens
  behind_leaf : ∀ last ∈ tokens.getLast?, IsLeaf last →
    ∀ other, reader.step (.leaf other) = none

/-- One token more keeps this. Behind a leaf the reader refuses another one, so a token that is
taken there is a mark. -/
theorem TakenApart.step {token : Token} (h : TakenApart reader tokens)
    (hstep : reader.step token = some next) : TakenApart next (tokens ++ [token]) := by
  constructor
  · refine List.isChain_append.mpr ⟨h.separate, .singleton token, fun last hmem first hfirst => ?_⟩
    obtain rfl := Option.some.inj hfirst
    rintro ⟨isLeaf, other, rfl⟩
    rw [h.behind_leaf last hmem isLeaf other] at hstep
    exact nomatch hstep
  · rintro last hmem ⟨value, rfl⟩ other
    obtain rfl : token = .leaf value := by simpa using hmem
    exact step_leaf_of_step_leaf hstep

/-- Of two neighbours among the tokens of a document, one is a mark. -/
theorem allSeparate_tokensOf (document : Json) : AllSeparate (tokensOf document) := by
  have hstart : TakenApart Reader.start [] := ⟨.nil, nofun⟩
  have hend : TakenApart ⟨[], .behind document⟩ (tokensOf document) :=
    of_foldlM_eq_some hstart TakenApart.step (readAs_tokensOf document [])
  exact hend.separate

/-- What is spelled as a leaf is neither an array nor an object. -/
theorem LaidOut.isSingle (h : LaidOut tokens t) : ∀ token ∈ tokens, IsSingle token := by
  induction h with
  | nil => exact nofun
  | space _ _ ih => exact ih
  | token _ spelling ih =>
    refine List.forall_mem_append.mpr ⟨ih, List.forall_mem_singleton.mpr ?_⟩
    rintro value rfl
    cases spelling <;> trivial

/-- A text is a document: its tokens, with any white space around them. -/
def Denotes (t : Text) (document : Json) : Prop := LaidOut (tokensOf document) t

/-- A text is read as the document that it denotes, and as nothing else. -/
theorem ofText?_eq_some_iff : Json.ofText? t = some document ↔ Denotes t document := by
  rw [Json.ofText?, Option.bind_eq_some_iff]
  constructor
  · rintro ⟨tokens, htokens, hdocument⟩
    have laidOut := laidOut_of_tokens? htokens
    obtain rfl := (ofTokens?_eq_some_iff laidOut.isSingle).mp hdocument
    exact laidOut
  · intro laidOut
    exact ⟨_, laidOut.tokens?_eq (allSeparate_tokensOf document),
      (ofTokens?_eq_some_iff laidOut.isSingle).mpr rfl⟩

/-- A number that an object has under a key is written as one. -/
theorem Denotes.isNumeral {members : List (Option Text × Json)} {key : Option Text} {w : Text}
    (denotes : Denotes t (.object members)) (hmem : (key, .number w) ∈ members) : IsNumeral w := by
  apply LaidOut.isNumeral denotes
  obtain ⟨front, back, rfl⟩ := List.append_of_mem hmem
  rw [tokensOf_object, List.map_append, List.map_cons, intercalate_append_cons]
  simp [memberTokens, tokensOf]

end

end AsmVariants.Proofs
