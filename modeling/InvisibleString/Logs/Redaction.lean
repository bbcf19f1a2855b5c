import InvisibleString.Lib.Text

/- # `Logs.Redaction` — credentials in the URLs of a text

A URL's userinfo stands behind its scheme and `://`, up to the last `@` of the authority; the
public part of a text is the rest.  `redactUrlCredentials` replaces, by a regular expression, what
stands behind a scheme that starts at a word boundary up to the first `@`, if neither a slash nor
white space comes before.

A text is cut at each `://`; the replacement works on each piece by itself, told by the end of the
piece before.

**Proved here.**

    the replacement, piece by piece  (`redact_eq`)
    two texts are redacted to one exactly when all credentials in which they differ are behind a
      scheme at a word boundary, begin without slash or white space and are the same from the
      first `@` on  (`redact_eq_iff`)
    a redacted text has the public part of the text exactly when nothing outside of authorities
      is replaced  (`publicText_redact_iff`)
-/

namespace InvisibleString.Logs

open Json

/-! ## The replacement -/

def redactionPlaceholder : JsString := ascii "[redacted]"

def isLetterUnit (c : CodeUnit) : Bool :=
  (unit 'a' ≤ c && c ≤ unit 'z') || (unit 'A' ≤ c && c ≤ unit 'Z')

/-- `[a-z0-9+.-]`, in either case. -/
def isSchemeUnit (c : CodeUnit) : Bool :=
  isLetterUnit c || isDigit c || c == unit '+' || c == unit '.' || c == unit '-'

/-- `\w`. -/
def isWordUnit (c : CodeUnit) : Bool := isLetterUnit c || isDigit c || c == unit '_'

/-- `[^@/\s]`. -/
def isPlainUnit (c : CodeUnit) : Bool := c != unit '@' && c != unit '/' && !isWhite c

/-- `\b` in front of a letter. -/
def atBoundary (before : Option CodeUnit) : Bool := !(before.map isWordUnit).getD false

/-- `://`. -/
def urlMark : JsString := ascii "://"

/-- `([^@/\s]+)@` at the start of a text: what is behind it. -/
def behindCredentials (text : JsString) : Option JsString :=
  match text.dropWhile isPlainUnit with
  | c :: rest => if c = unit '@' ∧ text.takeWhile isPlainUnit ≠ [] then some rest else none
  | [] => none

/-- `(\b[a-z][a-z0-9+.-]*:\/\/)([^@/\s]+)@` at a place: the first group, and what is behind the
match.  Neither run can end sooner than it does: what comes behind is of another class. -/
def matchUrl (before : Option CodeUnit) (text : JsString) : Option (JsString × JsString) :=
  match text with
  | [] => none
  | c :: _ =>
    if atBoundary before ∧ isLetterUnit c then
      match text.dropWhile isSchemeUnit with
      | a :: b :: d :: body =>
        if a = unit ':' ∧ b = unit '/' ∧ d = unit '/' then
          (behindCredentials body).map fun rest => (text.takeWhile isSchemeUnit ++ urlMark, rest)
        else none
      | _ => none
    else none

/-- `replace`, from a place on; the number bounds the characters that are left. -/
def replaceUrls : Nat → Option CodeUnit → JsString → JsString
  | 0, _, text => text
  | _ + 1, _, [] => []
  | n + 1, before, c :: text =>
    match matchUrl before (c :: text) with
    | some (scheme, rest) =>
      scheme ++ redactionPlaceholder ++ unit '@' :: replaceUrls n (some (unit '@')) rest
    | none => c :: replaceUrls n (some c) text

def redactUrlCredentials (value : JsString) : JsString := replaceUrls value.length none value

/-! ## Pieces -/

def prepend (c : CodeUnit) : List JsString → List JsString
  | [] => [[c]]
  | p :: ps => (c :: p) :: ps

/-- The pieces between the `://`s. -/
def splitUrls : JsString → List JsString
  | a :: b :: d :: text =>
    if a = unit ':' ∧ b = unit '/' ∧ d = unit '/' then [] :: splitUrls text
    else prepend a (splitUrls (b :: d :: text))
  | text => [text]

/-- The piece ends in a scheme that starts at a word boundary. -/
def startsScheme : Option CodeUnit → JsString → Bool
  | _, [] => false
  | before, c :: piece =>
    (atBoundary before && isLetterUnit c && (c :: piece).all isSchemeUnit) ||
      startsScheme (some c) piece

/-- The piece ends in a scheme. -/
def endsInScheme (piece : JsString) : Bool :=
  (piece.reverse.takeWhile isSchemeUnit).any isLetterUnit

def redactPiece (scheme : Bool) (piece : JsString) : JsString :=
  if scheme then
    match behindCredentials piece with
    | some rest => redactionPlaceholder ++ unit '@' :: rest
    | none => piece
  else piece

def redactRest (scheme : Bool) : List JsString → List JsString
  | [] => []
  | piece :: pieces => redactPiece scheme piece :: redactRest (startsScheme none piece) pieces

def redactPieces (before : Option CodeUnit) : List JsString → List JsString
  | [] => []
  | piece :: pieces => piece :: redactRest (startsScheme before piece) pieces

theorem splitUrls_ne_nil (text : JsString) : splitUrls text ≠ [] := by
  unfold splitUrls
  split
  · split
    · exact List.cons_ne_nil _ _
    · cases splitUrls _ <;> exact List.cons_ne_nil _ _
  · exact List.cons_ne_nil _ _

theorem prepend_append (c : CodeUnit) {ps : List JsString} (h : ps ≠ []) (qs : List JsString) :
    prepend c (ps ++ qs) = prepend c ps ++ qs := by
  cases ps with
  | nil => exact absurd rfl h
  | cons p ps => rfl

theorem join_cons_of_ne_nil (sep p : JsString) {ps : List JsString} (h : ps ≠ []) :
    join sep (p :: ps) = p ++ sep ++ join sep ps := by
  cases ps with
  | nil => exact absurd rfl h
  | cons q ps => rfl

/-- What is in front of the first piece. -/
theorem join_append_cons (sep a p : JsString) (ps : List JsString) :
    join sep ((a ++ p) :: ps) = a ++ join sep (p :: ps) := by
  cases ps with
  | nil => rfl
  | cons q ps =>
    show a ++ p ++ sep ++ join sep (q :: ps) = a ++ (p ++ sep ++ join sep (q :: ps))
    simp only [List.append_assoc]

theorem join_prepend (sep : JsString) (c : CodeUnit) {ps : List JsString} (h : ps ≠ []) :
    join sep (prepend c ps) = c :: join sep ps := by
  cases ps with
  | nil => exact absurd rfl h
  | cons p ps => exact join_append_cons sep [c] p ps

theorem splitUrls_mark (text : JsString) : splitUrls (urlMark ++ text) = [] :: splitUrls text := by
  show splitUrls (unit ':' :: unit '/' :: unit '/' :: text) = _
  rw [splitUrls, if_pos ⟨rfl, rfl, rfl⟩]

theorem splitUrls_cons {c : CodeUnit} {text : JsString}
    (h : ∀ rest, c :: text ≠ urlMark ++ rest) :
    splitUrls (c :: text) = prepend c (splitUrls text) := by
  rcases text with _ | ⟨b, _ | ⟨d, text⟩⟩
  · rfl
  · rfl
  · rw [splitUrls, if_neg]
    rintro ⟨rfl, rfl, rfl⟩
    exact h text rfl

theorem join_splitUrls (text : JsString) : join urlMark (splitUrls text) = text := by
  induction text using splitUrls.induct with
  | case1 a b d text h ih =>
    obtain ⟨rfl, rfl, rfl⟩ := h
    rw [splitUrls, if_pos ⟨rfl, rfl, rfl⟩, join_cons_of_ne_nil _ _ (splitUrls_ne_nil _), ih]
    rfl
  | case2 a b d text h ih =>
    rw [splitUrls, if_neg h, join_prepend _ _ (splitUrls_ne_nil _), ih]
  | case3 text h =>
    rw [splitUrls]
    · rfl
    · exact h

theorem splitUrls_append (a b : JsString) :
    splitUrls (a ++ urlMark ++ b) = splitUrls a ++ splitUrls b := by
  induction a using splitUrls.induct with
  | case1 x y z a h ih =>
    obtain ⟨rfl, rfl, rfl⟩ := h
    have hleft : splitUrls (unit ':' :: unit '/' :: unit '/' :: a) = [] :: splitUrls a :=
      splitUrls_mark a
    rw [hleft]
    show _ = [] :: (splitUrls a ++ splitUrls b)
    rw [← ih]
    exact splitUrls_mark _
  | case2 x y z a h ih =>
    rw [splitUrls, if_neg h, ← prepend_append _ (splitUrls_ne_nil _), ← ih]
    exact if_neg h
  | case3 a h =>
    rcases a with _ | ⟨x, _ | ⟨y, _ | ⟨z, a⟩⟩⟩
    · exact splitUrls_mark b
    · have hne : ∀ rest, x :: (urlMark ++ b) ≠ urlMark ++ rest := by
        intro rest heq
        have hslash : unit ':' = unit '/' := (List.cons.inj (List.cons.inj heq).2).1
        exact absurd hslash (by decide)
      show splitUrls (x :: (urlMark ++ b)) = _
      rw [splitUrls_cons hne, splitUrls_mark]
      rfl
    · have hne : ∀ rest, x :: y :: (urlMark ++ b) ≠ urlMark ++ rest := by
        intro rest heq
        have hslash : unit ':' = unit '/' :=
          (List.cons.inj (List.cons.inj (List.cons.inj heq).2).2).1
        exact absurd hslash (by decide)
      have hne' : ∀ rest, y :: (urlMark ++ b) ≠ urlMark ++ rest := by
        intro rest heq
        have hslash : unit ':' = unit '/' := (List.cons.inj (List.cons.inj heq).2).1
        exact absurd hslash (by decide)
      show splitUrls (x :: y :: (urlMark ++ b)) = _
      rw [splitUrls_cons hne, splitUrls_cons hne', splitUrls_mark]
      rfl
    · exact absurd rfl (h x y z a)

/-! ## One piece -/

theorem behindCredentials_at {u : JsString} (hu : u.all isPlainUnit = true) (hne : u ≠ [])
    (rest : JsString) : behindCredentials (u ++ unit '@' :: rest) = some rest := by
  have hplain : ∀ c ∈ u, isPlainUnit c = true := List.all_eq_true.mp hu
  have hdrop : (u ++ unit '@' :: rest).dropWhile isPlainUnit = unit '@' :: rest := by
    rw [List.dropWhile_append_of_pos hplain]
    rfl
  have htake : (u ++ unit '@' :: rest).takeWhile isPlainUnit = u := by
    rw [List.takeWhile_append_of_pos hplain]
    exact List.append_nil u
  rw [behindCredentials, hdrop, htake]
  exact if_pos ⟨rfl, hne⟩

theorem eq_of_behindCredentials {text rest : JsString} (h : behindCredentials text = some rest) :
    ∃ u, u.all isPlainUnit = true ∧ u ≠ [] ∧ text = u ++ unit '@' :: rest := by
  have hsplit := List.takeWhile_append_dropWhile (p := isPlainUnit) (l := text)
  unfold behindCredentials at h
  split at h
  · rename_i c r hdrop
    split at h
    · rename_i hc
      cases h
      refine ⟨text.takeWhile isPlainUnit, List.all_takeWhile, hc.2, ?_⟩
      rw [hdrop, hc.1] at hsplit
      exact hsplit.symm
    · cases h
  · cases h

theorem behindCredentials_append (q text : JsString) :
    behindCredentials (q ++ urlMark ++ text) =
      (behindCredentials q).map fun rest => rest ++ urlMark ++ text := by
  cases hq : behindCredentials q with
  | some rest =>
    obtain ⟨u, hu, hne, rfl⟩ := eq_of_behindCredentials hq
    have hmove : u ++ unit '@' :: rest ++ urlMark ++ text =
        u ++ unit '@' :: (rest ++ urlMark ++ text) := by
      simp only [List.append_assoc, List.cons_append]
    rw [hmove]
    exact behindCredentials_at hu hne _
  | none =>
    cases hall : behindCredentials (q ++ urlMark ++ text) with
    | none => rfl
    | some rest =>
      obtain ⟨u, hu, hne, heq⟩ := eq_of_behindCredentials hall
      rw [List.append_assoc, List.append_eq_append_iff] at heq
      rcases heq with ⟨a, rfl, hrest⟩ | ⟨a, rfl, hrest⟩
      · -- the credentials go on behind the piece: a slash is among them, or the `@` is a colon
        rcases a with _ | ⟨x, _ | ⟨y, a⟩⟩
        · exact absurd (List.cons.inj hrest).1 (by decide)
        · exact absurd (List.cons.inj (List.cons.inj hrest).2).1 (by decide)
        · have hy : unit '/' = y := (List.cons.inj (List.cons.inj hrest).2).1
          have hplain := List.all_eq_true.mp hu y (by simp)
          rw [← hy] at hplain
          exact absurd hplain (by decide)
      · rcases a with _ | ⟨x, a⟩
        · exact absurd (List.cons.inj hrest.symm).1 (by decide)
        · cases hrest
          rw [behindCredentials_at hu hne] at hq
          cases hq

theorem behindCredentials_join (q : JsString) (qs : List JsString)
    (h : behindCredentials (join urlMark (q :: qs)) = none) : behindCredentials q = none := by
  cases qs with
  | nil => exact h
  | cons q' qs =>
    rw [join_cons_of_ne_nil _ _ (List.cons_ne_nil _ _), behindCredentials_append] at h
    exact Option.map_eq_none_iff.mp h

theorem redactPiece_of_none {q : JsString} (h : behindCredentials q = none) (scheme : Bool) :
    redactPiece scheme q = q := by
  cases scheme with
  | true => rw [redactPiece, if_pos rfl, h]
  | false => rfl

theorem startsScheme_congr {before before' : Option CodeUnit}
    (h : atBoundary before = atBoundary before') (p : JsString) :
    startsScheme before p = startsScheme before' p := by
  cases p with
  | nil => rfl
  | cons c p => rw [startsScheme, startsScheme, h]

theorem startsScheme_at (before : Option CodeUnit) (u q : JsString) :
    startsScheme before (u ++ unit '@' :: q) = startsScheme none q := by
  induction u generalizing before with
  | nil =>
    have hat : isLetterUnit (unit '@') = false := by decide
    show (_ && isLetterUnit (unit '@') && _ || startsScheme (some (unit '@')) q) = _
    rw [hat, Bool.and_false, Bool.false_and, Bool.false_or]
    exact startsScheme_congr (by decide) q
  | cons c u ih =>
    have hnot : (c :: (u ++ unit '@' :: q)).all isSchemeUnit = false := by
      rw [List.all_eq_false]
      exact ⟨unit '@', by simp, by decide⟩
    rw [List.cons_append, startsScheme, hnot, Bool.and_false, Bool.false_or]
    exact ih (some c)

/-! ## The text, piece by piece -/

theorem redactPieces_congr {before before' : Option CodeUnit}
    (h : atBoundary before = atBoundary before') (ps : List JsString) :
    redactPieces before ps = redactPieces before' ps := by
  cases ps with
  | nil => rfl
  | cons p ps => rw [redactPieces, redactPieces, startsScheme_congr h]

theorem redactRest_false (ps : List JsString) : redactRest false ps = redactPieces none ps := by
  cases ps <;> rfl

theorem redactPieces_ne_nil (before : Option CodeUnit) {ps : List JsString} (h : ps ≠ []) :
    redactPieces before ps ≠ [] := by
  cases ps with
  | nil => exact absurd rfl h
  | cons p ps => exact List.cons_ne_nil _ _

theorem splitUrls_scheme {p : JsString} (h : p.all isSchemeUnit = true) : splitUrls p = [p] := by
  induction p with
  | nil => rfl
  | cons c p ih =>
    obtain ⟨hc, hp⟩ := Bool.and_eq_true_iff.mp (List.all_cons.symm.trans h)
    have hne : ∀ rest, c :: p ≠ urlMark ++ rest := by
      intro rest heq
      rw [(List.cons.inj heq).1] at hc
      exact absurd hc (by decide)
    rw [splitUrls_cons hne, ih hp]
    rfl

theorem splitUrls_at {u : JsString} (hu : u.all isPlainUnit = true) (rest : JsString) :
    ∃ q qs, splitUrls rest = q :: qs ∧
      splitUrls (u ++ unit '@' :: rest) = (u ++ unit '@' :: q) :: qs := by
  obtain ⟨q, qs, hrest⟩ := List.exists_cons_of_ne_nil (splitUrls_ne_nil rest)
  refine ⟨q, qs, hrest, ?_⟩
  induction u with
  | nil =>
    have hne : ∀ r, unit '@' :: rest ≠ urlMark ++ r := fun r heq =>
      absurd (List.cons.inj heq).1 (by decide)
    rw [List.nil_append, splitUrls_cons hne, hrest]
    rfl
  | cons c u ih =>
    obtain ⟨hc, hu'⟩ := Bool.and_eq_true_iff.mp (List.all_cons.symm.trans hu)
    have hne : ∀ r, c :: (u ++ unit '@' :: rest) ≠ urlMark ++ r := by
      intro r heq
      have htail := (List.cons.inj heq).2
      rcases u with _ | ⟨x, u⟩
      · exact absurd (List.cons.inj htail).1 (by decide)
      · have hx : x = unit '/' := (List.cons.inj htail).1
        have hplain := (Bool.and_eq_true_iff.mp (List.all_cons.symm.trans hu')).1
        rw [hx] at hplain
        exact absurd hplain (by decide)
    rw [List.cons_append, splitUrls_cons hne, ih hu']
    rfl

theorem eq_of_matchUrl {before : Option CodeUnit} {text scheme rest : JsString}
    (h : matchUrl before text = some (scheme, rest)) :
    ∃ p body, text = p ++ urlMark ++ body ∧ scheme = p ++ urlMark ∧
      p.all isSchemeUnit = true ∧ startsScheme before p = true ∧
      behindCredentials body = some rest := by
  cases text with
  | nil => cases h
  | cons c text =>
    unfold matchUrl at h
    dsimp only at h
    split at h
    · rename_i hstart
      split at h
      · rename_i a b d body hdrop
        split at h
        · rename_i hmark
          obtain ⟨r, hr, heq⟩ := Option.map_eq_some_iff.mp h
          cases heq
          have hsplit := List.takeWhile_append_dropWhile (p := isSchemeUnit) (l := c :: text)
          rw [hdrop] at hsplit
          obtain ⟨rfl, rfl, rfl⟩ := hmark
          have hall : ((c :: text).takeWhile isSchemeUnit).all isSchemeUnit = true :=
            List.all_takeWhile
          refine ⟨_, body, ?_, rfl, hall, ?_, hr⟩
          · rw [List.append_assoc]
            exact hsplit.symm
          · have hscheme : isSchemeUnit c = true := by
              rw [isSchemeUnit, hstart.2]
              rfl
            rw [List.takeWhile_cons_of_pos hscheme] at hall ⊢
            rw [startsScheme, hall, hstart.1, hstart.2]
            rfl
        · cases h
      · cases h
    · cases h

theorem behindCredentials_of_matchUrl {before : Option CodeUnit} {c : CodeUnit} {p body : JsString}
    (hbefore : atBoundary before = true) (hc : isLetterUnit c = true)
    (hp : (c :: p).all isSchemeUnit = true)
    (h : matchUrl before (c :: p ++ urlMark ++ body) = none) : behindCredentials body = none := by
  have hscheme : ∀ d ∈ c :: p, isSchemeUnit d = true := List.all_eq_true.mp hp
  have hdrop : (c :: p ++ urlMark ++ body).dropWhile isSchemeUnit =
      unit ':' :: unit '/' :: unit '/' :: body := by
    rw [List.append_assoc, List.dropWhile_append_of_pos hscheme]
    rfl
  have hmatch : matchUrl before (c :: p ++ urlMark ++ body) = (behindCredentials body).map
      fun rest => ((c :: p ++ urlMark ++ body).takeWhile isSchemeUnit ++ urlMark, rest) := by
    show (if atBoundary before ∧ isLetterUnit c then
      match (c :: p ++ urlMark ++ body).dropWhile isSchemeUnit with
      | a :: b :: d :: body' =>
        if a = unit ':' ∧ b = unit '/' ∧ d = unit '/' then
          (behindCredentials body').map fun rest =>
            ((c :: p ++ urlMark ++ body).takeWhile isSchemeUnit ++ urlMark, rest)
        else none
      | _ => none
    else none) = _
    rw [if_pos ⟨hbefore, hc⟩, hdrop]
    exact if_pos ⟨rfl, rfl, rfl⟩
  rw [hmatch] at h
  exact Option.map_eq_none_iff.mp h

theorem replaceUrls_eq (n : Nat) : ∀ before text, text.length ≤ n →
    replaceUrls n before text = join urlMark (redactPieces before (splitUrls text)) := by
  induction n using Nat.strong_induction_on with
  | _ n ih =>
    intro before text hlength
    rcases text with _ | ⟨c, text⟩
    · cases n <;> rfl
    · obtain ⟨m, rfl⟩ : ∃ m, n = m + 1 := ⟨n - 1, by rw [List.length_cons] at hlength; omega⟩
      rw [List.length_cons] at hlength
      by_cases hmark : ∃ rest, c :: text = urlMark ++ rest
      · obtain ⟨rest, heq⟩ := hmark
        cases heq
        change rest.length + 1 + 1 + 1 ≤ m + 1 at hlength
        obtain ⟨k, rfl⟩ : ∃ k, m = k + 2 := ⟨m - 2, by omega⟩
        have hrest := ih k (by omega) (some (unit '/')) rest (by omega)
        have hcolon : replaceUrls (k + 2 + 1) before (urlMark ++ rest) =
            urlMark ++ replaceUrls k (some (unit '/')) rest := by
          have hnone : ∀ b d, isLetterUnit d = false → ∀ t, matchUrl b (d :: t) = none := by
            intro b d hd t
            rw [matchUrl, if_neg]
            rintro ⟨-, hletter⟩
            rw [hd] at hletter
            cases hletter
          show replaceUrls (k + 2 + 1) before (unit ':' :: unit '/' :: unit '/' :: rest) = _
          rw [replaceUrls, hnone _ _ (by decide), replaceUrls, hnone _ _ (by decide), replaceUrls,
            hnone _ _ (by decide)]
          rfl
        change replaceUrls (k + 2 + 1) before (urlMark ++ rest) =
          join urlMark (redactPieces before (splitUrls (urlMark ++ rest)))
        rw [hcolon, hrest, splitUrls_mark]
        show _ = join urlMark ([] :: redactRest false (splitUrls rest))
        rw [redactRest_false, join_cons_of_ne_nil _ _
          (redactPieces_ne_nil _ (splitUrls_ne_nil rest)),
          redactPieces_congr (show _ = atBoundary none by decide)]
        rfl
      · have hcut := splitUrls_cons fun rest heq => hmark ⟨rest, heq⟩
        obtain ⟨p, ps, hsplit⟩ := List.exists_cons_of_ne_nil (splitUrls_ne_nil text)
        cases hmatch : matchUrl before (c :: text) with
        | none =>
          rw [replaceUrls, hmatch, hcut, hsplit]
          show c :: replaceUrls m (some c) text =
            join urlMark ((c :: p) :: redactRest (startsScheme before (c :: p)) ps)
          rw [ih m (Nat.lt_succ_self m) (some c) text (by omega), hsplit]
          have hsame : redactRest (startsScheme before (c :: p)) ps =
              redactRest (startsScheme (some c) p) ps := by
            rw [startsScheme]
            cases hhere : atBoundary before && isLetterUnit c && (c :: p).all isSchemeUnit with
            | false => rfl
            | true =>
              cases ps with
              | nil => rfl
              | cons q qs =>
                have htext : c :: text = c :: p ++ urlMark ++ join urlMark (q :: qs) := by
                  rw [← join_splitUrls text, hsplit, join_cons_of_ne_nil _ _ (List.cons_ne_nil _ _)]
                  simp only [List.cons_append, List.append_assoc]
                rw [Bool.and_eq_true, Bool.and_eq_true] at hhere
                rw [htext] at hmatch
                have hnone := behindCredentials_join q qs
                  (behindCredentials_of_matchUrl hhere.1.1 hhere.1.2 hhere.2 hmatch)
                rw [redactRest, redactRest, redactPiece_of_none hnone, redactPiece_of_none hnone]
          rw [hsame]
          exact (join_append_cons urlMark [c] p _).symm
        | some e =>
          obtain ⟨scheme, rest⟩ := e
          obtain ⟨pp, body, htext, rfl, hpp, hstart, hbody⟩ := eq_of_matchUrl hmatch
          obtain ⟨u, hu, hne, rfl⟩ := eq_of_behindCredentials hbody
          obtain ⟨q, qs, hrest, hbodySplit⟩ := splitUrls_at hu rest
          have hshort : rest.length ≤ m := by
            have := congrArg List.length htext
            simp only [List.length_cons, List.length_append] at this
            omega
          rw [replaceUrls, hmatch, htext, splitUrls_append, splitUrls_scheme hpp, hbodySplit]
          show pp ++ urlMark ++ redactionPlaceholder ++
              unit '@' :: replaceUrls m (some (unit '@')) rest =
            join urlMark (pp :: redactPiece (startsScheme before pp) (u ++ unit '@' :: q) ::
              redactRest (startsScheme none (u ++ unit '@' :: q)) qs)
          rw [ih m (Nat.lt_succ_self m) _ _ hshort, hrest, hstart, redactPiece, if_pos rfl,
            behindCredentials_at hu hne, startsScheme_at, join_cons_of_ne_nil _ _
              (List.cons_ne_nil _ _)]
          show pp ++ urlMark ++ redactionPlaceholder ++ unit '@' ::
              join urlMark (q :: redactRest (startsScheme (some (unit '@')) q) qs) =
            pp ++ urlMark ++ join urlMark ((redactionPlaceholder ++ unit '@' :: q) ::
              redactRest (startsScheme none q) qs)
          have hmove : redactionPlaceholder ++ unit '@' :: q =
              (redactionPlaceholder ++ [unit '@']) ++ q := by
            rw [List.append_assoc]
            rfl
          rw [hmove, join_append_cons, startsScheme_congr (show _ = atBoundary none by decide)]
          simp only [List.append_assoc, List.singleton_append]

theorem redact_eq (text : JsString) : redactUrlCredentials text =
    join urlMark (redactPieces none (splitUrls text)) :=
  replaceUrls_eq text.length none text (Nat.le_refl _)

/-! ## Pieces of a redacted text -/

theorem prefix_of_splitUrls {text p : JsString} {ps : List JsString}
    (h : splitUrls text = p :: ps) : ∃ rest, text = p ++ rest := by
  have hjoin := join_splitUrls text
  rw [h] at hjoin
  cases ps with
  | nil => exact ⟨[], by rw [List.append_nil]; exact hjoin.symm⟩
  | cons q ps =>
    rw [join_cons_of_ne_nil _ _ (List.cons_ne_nil _ _), List.append_assoc] at hjoin
    exact ⟨_, hjoin.symm⟩

theorem splitUrls_of_mem {text p : JsString} (h : p ∈ splitUrls text) : splitUrls p = [p] := by
  induction text using splitUrls.induct generalizing p with
  | case1 a b d text hmark ih =>
    rw [splitUrls, if_pos hmark] at h
    rcases List.mem_cons.mp h with rfl | h
    · rfl
    · exact ih h
  | case2 a b d text hmark ih =>
    rw [splitUrls, if_neg hmark] at h
    obtain ⟨q, qs, hsplit⟩ := List.exists_cons_of_ne_nil (splitUrls_ne_nil (b :: d :: text))
    rw [hsplit] at h ih
    rcases List.mem_cons.mp h with rfl | h
    · have hne : ∀ rest, a :: q ≠ urlMark ++ rest := by
        intro rest heq
        obtain ⟨r, hr⟩ := prefix_of_splitUrls hsplit
        obtain ⟨rfl, hq⟩ := List.cons.inj heq
        rw [hq] at hr
        obtain ⟨rfl, hd⟩ := List.cons.inj hr
        exact hmark ⟨rfl, rfl, (List.cons.inj hd).1⟩
      rw [splitUrls_cons hne, ih List.mem_cons_self]
      rfl
    · exact ih (List.mem_cons_of_mem _ h)
  | case3 text hshort =>
    rw [splitUrls] at h
    · rw [List.mem_singleton.mp h, splitUrls]
      exact hshort
    · exact hshort

theorem splitUrls_join {ps : List JsString} (hne : ps ≠ [])
    (h : ∀ p ∈ ps, splitUrls p = [p]) : splitUrls (join urlMark ps) = ps := by
  induction ps with
  | nil => exact absurd rfl hne
  | cons p ps ih =>
    have hp := h p List.mem_cons_self
    cases ps with
    | nil => exact hp
    | cons q qs =>
      rw [join_cons_of_ne_nil _ _ (List.cons_ne_nil _ _), splitUrls_append, hp,
        ih (List.cons_ne_nil _ _) fun r hr => h r (List.mem_cons_of_mem _ hr)]
      rfl

theorem redactionPlaceholder_plain : redactionPlaceholder.all isPlainUnit = true := by decide

theorem redactPiece_eq {u : JsString} (hu : u.all isPlainUnit = true) (hne : u ≠ [])
    (rest : JsString) :
    redactPiece true (u ++ unit '@' :: rest) = redactionPlaceholder ++ unit '@' :: rest := by
  rw [redactPiece, if_pos rfl, behindCredentials_at hu hne]

theorem splitUrls_redactPiece {p : JsString} (h : splitUrls p = [p]) (scheme : Bool) :
    splitUrls (redactPiece scheme p) = [redactPiece scheme p] := by
  cases hp : behindCredentials p with
  | none =>
    rw [redactPiece_of_none hp]
    exact h
  | some rest =>
    cases scheme with
    | false => exact h
    | true =>
      obtain ⟨u, hu, hne, rfl⟩ := eq_of_behindCredentials hp
      obtain ⟨q, qs, hrest, hcut⟩ := splitUrls_at hu rest
      rw [h] at hcut
      obtain ⟨hq, rfl⟩ := List.cons.inj hcut
      have hq : rest = q := (List.cons.inj (List.append_cancel_left hq)).2
      subst hq
      obtain ⟨q', qs', hrest', hcut'⟩ := splitUrls_at redactionPlaceholder_plain rest
      rw [hrest] at hrest'
      obtain ⟨rfl, rfl⟩ := List.cons.inj hrest'
      rw [redactPiece_eq hu hne]
      exact hcut'

theorem splitUrls_of_mem_redactRest {ps : List JsString} (h : ∀ p ∈ ps, splitUrls p = [p])
    (scheme : Bool) : ∀ p ∈ redactRest scheme ps, splitUrls p = [p] := by
  induction ps generalizing scheme with
  | nil =>
    intro p hp
    exact absurd hp List.not_mem_nil
  | cons q qs ih =>
    intro p hp
    rcases List.mem_cons.mp hp with rfl | hp
    · exact splitUrls_redactPiece (h q List.mem_cons_self) scheme
    · exact ih (fun r hr => h r (List.mem_cons_of_mem _ hr)) _ p hp

theorem splitUrls_redact (text : JsString) :
    splitUrls (redactUrlCredentials text) = redactRest false (splitUrls text) := by
  have hne := redactPieces_ne_nil none (splitUrls_ne_nil text)
  rw [← redactRest_false] at hne
  rw [redact_eq, ← redactRest_false]
  exact splitUrls_join hne (splitUrls_of_mem_redactRest (fun p hp => splitUrls_of_mem hp) false)

/-! ## What two texts may differ in -/

/-- Different credentials are hidden: both begin behind a scheme at a word boundary with text
that has no `@`, slash or white space, and are the same from the first `@` on. -/
def Hides (scheme : Bool) (p q : JsString) : Prop :=
  p = q ∨ scheme = true ∧ ∃ a b rest, a ≠ [] ∧ b ≠ [] ∧ a.all isPlainUnit = true ∧
    b.all isPlainUnit = true ∧ p = a ++ unit '@' :: rest ∧ q = b ++ unit '@' :: rest

def HidesRest (scheme : Bool) : List JsString → List JsString → Prop
  | [], [] => True
  | p :: ps, q :: qs => Hides scheme p q ∧ HidesRest (startsScheme none p) ps qs
  | _, _ => False

/-- All credentials in which the texts differ are hidden. -/
def HidesCredentials (text text' : JsString) : Prop :=
  HidesRest false (splitUrls text) (splitUrls text')

theorem redactPiece_eq_iff (scheme : Bool) (p q : JsString) :
    redactPiece scheme p = redactPiece scheme q ↔ Hides scheme p q := by
  constructor
  · intro h
    cases scheme with
    | false => exact Or.inl h
    | true =>
      cases hp : behindCredentials p with
      | none =>
        rw [redactPiece_of_none hp] at h
        cases hq : behindCredentials q with
        | none =>
          rw [redactPiece_of_none hq] at h
          exact Or.inl h
        | some rest =>
          obtain ⟨b, hb, hbne, rfl⟩ := eq_of_behindCredentials hq
          rw [redactPiece_eq hb hbne] at h
          rw [h, behindCredentials_at redactionPlaceholder_plain (by decide)] at hp
          cases hp
      | some rest =>
        obtain ⟨a, ha, hane, rfl⟩ := eq_of_behindCredentials hp
        rw [redactPiece_eq ha hane] at h
        cases hq : behindCredentials q with
        | none =>
          rw [redactPiece_of_none hq] at h
          rw [← h, behindCredentials_at redactionPlaceholder_plain (by decide)] at hq
          cases hq
        | some rest' =>
          obtain ⟨b, hb, hbne, rfl⟩ := eq_of_behindCredentials hq
          rw [redactPiece_eq hb hbne] at h
          have hrest : rest = rest' := (List.cons.inj (List.append_cancel_left h)).2
          exact Or.inr ⟨rfl, a, b, rest, hane, hbne, ha, hb, rfl, by rw [hrest]⟩
  · rintro (rfl | ⟨rfl, a, b, rest, hane, hbne, ha, hb, rfl, rfl⟩)
    · rfl
    · rw [redactPiece_eq ha hane, redactPiece_eq hb hbne]

theorem Hides.startsScheme {scheme : Bool} {p q : JsString} (h : Hides scheme p q) :
    startsScheme none p = startsScheme none q := by
  rcases h with rfl | ⟨-, a, b, rest, -, -, -, -, rfl, rfl⟩
  · rfl
  · rw [startsScheme_at, startsScheme_at]

theorem redactRest_eq_iff (scheme : Bool) (ps qs : List JsString) :
    redactRest scheme ps = redactRest scheme qs ↔ HidesRest scheme ps qs := by
  induction ps generalizing scheme qs with
  | nil =>
    cases qs with
    | nil => exact ⟨fun _ => trivial, fun _ => rfl⟩
    | cons q qs => exact ⟨fun h => absurd h.symm (List.cons_ne_nil _ _), False.elim⟩
  | cons p ps ih =>
    cases qs with
    | nil => exact ⟨fun h => absurd h (List.cons_ne_nil _ _), False.elim⟩
    | cons q qs =>
      constructor
      · intro h
        obtain ⟨hhead, htail⟩ := List.cons.inj h
        have hpq := (redactPiece_eq_iff scheme p q).mp hhead
        rw [← hpq.startsScheme] at htail
        exact ⟨hpq, (ih _ qs).mp htail⟩
      · rintro ⟨hpq, hrest⟩
        have htail := (ih _ qs).mpr hrest
        show redactPiece scheme p :: redactRest (InvisibleString.Logs.startsScheme none p) ps =
          redactPiece scheme q :: redactRest (InvisibleString.Logs.startsScheme none q) qs
        rw [(redactPiece_eq_iff scheme p q).mpr hpq, htail, hpq.startsScheme]

/-- Two texts are redacted to one exactly when the credentials in which they differ are hidden. -/
theorem redact_eq_iff (text text' : JsString) :
    redactUrlCredentials text = redactUrlCredentials text' ↔ HidesCredentials text text' := by
  rw [HidesCredentials, ← redactRest_eq_iff, ← splitUrls_redact, ← splitUrls_redact]
  constructor
  · intro h
    rw [h]
  · intro h
    rw [← join_splitUrls (redactUrlCredentials text), h, join_splitUrls]

/-! ## The public part of a text -/

/-- The authority of a URL ends at a slash, a question mark, a hash or white space. -/
def isAuthorityUnit (c : CodeUnit) : Bool :=
  c != unit '/' && c != unit '?' && c != unit '#' && !isWhite c

/-- What is behind the last `@` of the authority that begins here. -/
def behindUserinfo : JsString → Option JsString
  | [] => none
  | c :: text =>
    if isAuthorityUnit c then
      (behindUserinfo text).or (if c = unit '@' then some text else none)
    else none

/-- A piece without its userinfo; whether there was one stays known. -/
def publicPiece (url : Bool) (piece : JsString) : Bool × JsString :=
  if url then ((behindUserinfo piece).map fun rest => (true, rest)).getD (false, piece)
  else (false, piece)

def publicRest (url : Bool) : List JsString → List (Bool × JsString)
  | [] => []
  | piece :: pieces => publicPiece url piece :: publicRest (endsInScheme piece) pieces

/-- A text without the userinfo of its URLs. -/
def publicText (text : JsString) : List (Bool × JsString) := publicRest false (splitUrls text)

/-- What is replaced behind a scheme is inside the authority. -/
def Spares (scheme : Bool) (piece : JsString) : Prop :=
  ∀ a rest, scheme = true → a ≠ [] → a.all isPlainUnit = true → piece = a ++ unit '@' :: rest →
    a.all isAuthorityUnit = true

def SparesRest (scheme : Bool) : List JsString → Prop
  | [] => True
  | piece :: pieces => Spares scheme piece ∧ SparesRest (startsScheme none piece) pieces

/-- Nothing outside of authorities is replaced. -/
def SparesText (text : JsString) : Prop := SparesRest false (splitUrls text)

theorem behindUserinfo_at {a : JsString} (ha : a.all isAuthorityUnit = true) (rest : JsString) :
    behindUserinfo (a ++ unit '@' :: rest) = some ((behindUserinfo rest).getD rest) := by
  induction a with
  | nil =>
    show (if isAuthorityUnit (unit '@') then
      (behindUserinfo rest).or (if unit '@' = unit '@' then some rest else none) else none) = _
    rw [if_pos (by decide), if_pos rfl]
    cases behindUserinfo rest <;> rfl
  | cons c a ih =>
    obtain ⟨hc, ha⟩ := Bool.and_eq_true_iff.mp (List.all_cons.symm.trans ha)
    rw [List.cons_append, behindUserinfo, if_pos hc, ih ha]
    rfl

/-- An authority that ends before any `@`. -/
theorem behindUserinfo_of_plain {a : JsString} (ha : a.all isPlainUnit = true)
    (hend : a.all isAuthorityUnit = false) (rest : JsString) :
    behindUserinfo (a ++ rest) = none := by
  induction a with
  | nil => cases hend
  | cons c a ih =>
    obtain ⟨hc, ha⟩ := Bool.and_eq_true_iff.mp (List.all_cons.symm.trans ha)
    rw [List.cons_append, behindUserinfo]
    cases hin : isAuthorityUnit c with
    | false => rfl
    | true =>
      rw [List.all_cons, hin, Bool.true_and] at hend
      have hat : c ≠ unit '@' := by
        rintro rfl
        exact absurd hc (by decide)
      rw [if_pos rfl, ih ha hend, if_neg hat]
      rfl

theorem publicPiece_at {a : JsString} (ha : a.all isAuthorityUnit = true) (rest : JsString) :
    publicPiece true (a ++ unit '@' :: rest) = (true, (behindUserinfo rest).getD rest) := by
  rw [publicPiece, if_pos rfl, behindUserinfo_at ha]
  rfl

theorem publicPiece_redact_iff {scheme url : Bool} (h : scheme = true → url = true)
    (p : JsString) : publicPiece url (redactPiece scheme p) = publicPiece url p ↔
      Spares scheme p := by
  cases hp : behindCredentials p with
  | none =>
    rw [redactPiece_of_none hp]
    refine ⟨fun _ a rest _ hane ha heq => ?_, fun _ => rfl⟩
    rw [heq, behindCredentials_at ha hane] at hp
    cases hp
  | some rest =>
    cases scheme with
    | false => exact ⟨fun _ _ _ hfalse => absurd hfalse Bool.false_ne_true, fun _ => rfl⟩
    | true =>
      obtain ⟨a, ha, hane, rfl⟩ := eq_of_behindCredentials hp
      cases h rfl
      rw [redactPiece_eq ha hane, publicPiece_at (by decide)]
      constructor
      · intro hsame a' rest' _ hane' ha' heq
        -- the text before the first `@` is one
        have hone : a' = a := by
          have htake : ∀ {b : JsString}, b.all isPlainUnit = true → ∀ r,
              (b ++ unit '@' :: r).takeWhile isPlainUnit = b := by
            intro b hb r
            rw [List.takeWhile_append_of_pos (List.all_eq_true.mp hb)]
            exact List.append_nil b
          rw [← htake ha' rest', ← heq, htake ha]
        rw [hone]
        cases hin : a.all isAuthorityUnit with
        | true => rfl
        | false =>
          rw [publicPiece, if_pos rfl, behindUserinfo_of_plain ha hin] at hsame
          exact absurd (congrArg Prod.fst hsame).symm Bool.false_ne_true
      · intro hspares
        rw [publicPiece_at (hspares a rest rfl hane ha rfl)]

theorem endsInScheme_at (a rest : JsString) :
    endsInScheme (a ++ unit '@' :: rest) = endsInScheme rest := by
  have hstop : ∀ l : JsString, (unit '@' :: l).takeWhile isSchemeUnit = [] := fun l => rfl
  have hreverse : (a ++ unit '@' :: rest).reverse = rest.reverse ++ unit '@' :: a.reverse := by
    simp only [List.reverse_append, List.reverse_cons, List.append_assoc, List.singleton_append]
  rw [endsInScheme, hreverse, List.takeWhile_append, hstop, List.append_nil, endsInScheme]
  split
  · rename_i hall
    rw [(List.takeWhile_prefix isSchemeUnit).eq_of_length hall]
  · rfl

theorem endsInScheme_redactPiece (scheme : Bool) (p : JsString) :
    endsInScheme (redactPiece scheme p) = endsInScheme p := by
  cases hp : behindCredentials p with
  | none => rw [redactPiece_of_none hp]
  | some rest =>
    cases scheme with
    | false => rfl
    | true =>
      obtain ⟨a, ha, hane, rfl⟩ := eq_of_behindCredentials hp
      rw [redactPiece_eq ha hane, endsInScheme_at, endsInScheme_at]

theorem endsInScheme_of_startsScheme {before : Option CodeUnit} {p : JsString}
    (h : startsScheme before p = true) : endsInScheme p = true := by
  have hsplit : ∃ x c s, p = x ++ c :: s ∧ isLetterUnit c = true ∧
      (c :: s).all isSchemeUnit = true := by
    induction p generalizing before with
    | nil => cases h
    | cons c p ih =>
      rw [startsScheme, Bool.or_eq_true, Bool.and_eq_true, Bool.and_eq_true] at h
      rcases h with ⟨⟨-, hc⟩, hall⟩ | h
      · exact ⟨[], c, p, rfl, hc, hall⟩
      · obtain ⟨x, d, s, rfl, hd, hs⟩ := ih h
        exact ⟨c :: x, d, s, rfl, hd, hs⟩
  obtain ⟨x, c, s, rfl, hc, hs⟩ := hsplit
  have hs' : ∀ d ∈ (c :: s).reverse, isSchemeUnit d = true := fun d hd =>
    List.all_eq_true.mp hs d (List.mem_reverse.mp hd)
  rw [endsInScheme, List.reverse_append, List.takeWhile_append_of_pos hs', List.any_append,
    List.any_reverse, List.any_cons, hc]
  rfl

theorem publicRest_redact_iff {scheme url : Bool} (h : scheme = true → url = true)
    (ps : List JsString) :
    publicRest url (redactRest scheme ps) = publicRest url ps ↔ SparesRest scheme ps := by
  induction ps generalizing scheme url with
  | nil => exact ⟨fun _ => trivial, fun _ => rfl⟩
  | cons p ps ih =>
    have hhead := publicPiece_redact_iff h p
    have htail := @ih (startsScheme none p) (endsInScheme p) endsInScheme_of_startsScheme
    show publicPiece url (redactPiece scheme p) ::
        publicRest (endsInScheme (redactPiece scheme p)) (redactRest (startsScheme none p) ps) =
      publicPiece url p :: publicRest (endsInScheme p) ps ↔ _
    rw [endsInScheme_redactPiece, List.cons.injEq, hhead, htail]
    rfl

/-- A redacted text has the public part of the text exactly when nothing outside of authorities
is replaced. -/
theorem publicText_redact_iff (text : JsString) :
    publicText (redactUrlCredentials text) = publicText text ↔ SparesText text := by
  rw [publicText, splitUrls_redact]
  exact publicRest_redact_iff (fun h => absurd h Bool.false_ne_true) _

end InvisibleString.Logs
