import LocalWebAccess.CaddyTokens
import LocalWebAccess.PythonText

/-!
# Paths in the Caddyfile

Site roots, log files and imports stand in the generated files as quoted tokens. Caddy reads them there, and
the patrol reads the imports of the main file back.
-/
namespace LocalWebAccess.CaddyPaths

open CaddyTokens
open PythonText (isSpace strip splitlines)

/-- `text.replace(old, new)` of a single character -/
def replaceChars (old : Char) (new text : List Char) : List Char := text.flatMap fun c => if c = old then new else [c]

/-- `text.replace(first + second, new)` of two characters by one -/
def replacePair (first second new : Char) : List Char → List Char
  | c :: d :: text =>
    if c = first ∧ d = second then new :: replacePair first second new text
    else c :: replacePair first second new (d :: text)
  | text => text

/-- `_caddy_quote` -/
def caddyQuote (path : List Char) : List Char :=
  if '\x60' ∈ path then '"' :: replaceChars '"' ['\\', '"'] (replaceChars '\\' ['\\', '\\'] path) ++ ['"']
  else '\x60' :: path ++ ['\x60']

/-- `[1:-1]` -/
def inner (token : List Char) : List Char := token.tail.dropLast

/-- `.replace('\\"', '"').replace("\\\\", "\\")` -/
def unescape (text : List Char) : List Char := replacePair '\\' '\\' '\\' (replacePair '\\' '"' '"' text)

/-- `_unquote_caddy_path` -/
def unquoteCaddyPath (token : List Char) : List Char :=
  let token := strip token
  if 2 ≤ token.length ∧ token.head? = some '\x60' ∧ token.getLast? = some '\x60' then inner token
  else if 2 ≤ token.length ∧ token.head? = some '"' ∧ token.getLast? = some '"' then unescape (inner token)
  else token

/-- `_unquote_caddy` -/
def unquoteCaddy (raw : List Char) : List Char :=
  if 2 ≤ raw.length ∧ raw.head? = raw.getLast? ∧ (raw.head? = some '\x60' ∨ raw.head? = some '"') then
    if raw.head? = some '"' then unescape (inner raw) else inner raw
  else raw

/-! ## Quotes -/

/-- A path with every backslash doubled. -/
def doubled (path : List Char) : List Char := replaceChars '\\' ['\\', '\\'] path

/-- What stands between double quotes. -/
def escaped (path : List Char) : List Char := replaceChars '"' ['\\', '"'] (doubled path)

theorem escaped_cons (c : Char) (path : List Char) : escaped (c :: path) =
    (if c = '\\' then ['\\', '\\'] else if c = '"' then ['\\', '"'] else [c]) ++ escaped path := by
  unfold escaped doubled replaceChars
  rw [List.flatMap_cons, List.flatMap_append]
  split_ifs with slash quote
  · simp
  · simp [quote]
  · simp [quote]

theorem doubled_cons (c : Char) (path : List Char) :
    doubled (c :: path) = (if c = '\\' then ['\\', '\\'] else [c]) ++ doubled path := by
  unfold doubled replaceChars
  rw [List.flatMap_cons]

theorem escaped_head (path : List Char) : (escaped path).head? ≠ some '"' := by
  cases path with
  | nil => simp [escaped, doubled, replaceChars]
  | cons c path =>
    rw [escaped_cons]
    split_ifs with slash quote
    · simp
    · simp
    · simpa using quote

theorem replacePair_cons {first second new c : Char} {text : List Char}
    (single : c = first → text.head? ≠ some second) :
    replacePair first second new (c :: text) = c :: replacePair first second new text := by
  cases text with
  | nil => rfl
  | cons d text =>
    rw [replacePair, if_neg]
    rintro ⟨same, rfl⟩
    exact single same rfl

theorem unescape_quotes (path : List Char) : replacePair '\\' '"' '"' (escaped path) = doubled path := by
  induction path with
  | nil => rfl
  | cons c path ih =>
    rw [escaped_cons, doubled_cons]
    split_ifs with slash quote
    · have single : '\\' = '\\' → (escaped path).head? ≠ some '"' := fun _ => escaped_head path
      rw [List.cons_append, List.singleton_append, replacePair_cons (by simp), replacePair_cons single, ih]
      rfl
    · rw [List.cons_append, List.singleton_append, replacePair, if_pos ⟨rfl, rfl⟩, ih, quote]
      rfl
    · rw [List.singleton_append, replacePair_cons (absurd · slash), ih]
      rfl

theorem halve_doubled (path : List Char) : replacePair '\\' '\\' '\\' (doubled path) = path := by
  induction path with
  | nil => rfl
  | cons c path ih =>
    rw [doubled_cons]
    split_ifs with slash
    · rw [List.cons_append, List.singleton_append, replacePair, if_pos ⟨rfl, rfl⟩, ih, slash]
    · rw [List.singleton_append, replacePair_cons (absurd · slash), ih]

theorem unescape_escaped (path : List Char) : unescape (escaped path) = path := by
  rw [unescape, unescape_quotes, halve_doubled]

theorem caddyQuote_eq (path : List Char) : ∃ q text, caddyQuote path = q :: (text ++ [q]) ∧
    (q = '\x60' ∧ '\x60' ∉ path ∧ text = path ∨ q = '"' ∧ '\x60' ∈ path ∧ text = escaped path) := by
  unfold caddyQuote
  split_ifs with back
  · exact ⟨'"', escaped path, rfl, .inr ⟨rfl, back, rfl⟩⟩
  · exact ⟨'\x60', path, rfl, .inl ⟨rfl, back, rfl⟩⟩

theorem inner_quoted (q : Char) (text : List Char) : inner (q :: (text ++ [q])) = text := by
  rw [inner, List.tail_cons, List.dropLast_concat]

/-- The gateway reads a quoted path back. -/
theorem unquoteCaddyPath_quote (path : List Char) : unquoteCaddyPath (caddyQuote path) = path := by
  obtain ⟨q, text, quoted, which⟩ := caddyQuote_eq path
  have inked : isSpace q = false := by
    obtain ⟨rfl, -⟩ | ⟨rfl, -⟩ := which <;> decide
  have stays : strip (caddyQuote path) = caddyQuote path := by
    rw [quoted, PythonText.strip_cons inked, ← List.cons_append, PythonText.rstrip_append inked]
    rfl
  have last : (q :: (text ++ [q])).getLast? = some q := by rw [← List.cons_append, List.getLast?_concat]
  rw [unquoteCaddyPath, stays, quoted, last]
  obtain ⟨rfl, clean, rfl⟩ | ⟨rfl, back, rfl⟩ := which
  · rw [if_pos ⟨by simp, rfl, rfl⟩, inner_quoted]
  · rw [if_neg (by simp), if_pos ⟨by simp, rfl, rfl⟩, inner_quoted, unescape_escaped]

/-- So does the patrol. -/
theorem unquoteCaddy_quote (path : List Char) : unquoteCaddy (caddyQuote path) = path := by
  obtain ⟨q, text, quoted, which⟩ := caddyQuote_eq path
  have last : (q :: (text ++ [q])).getLast? = some q := by rw [← List.cons_append, List.getLast?_concat]
  rw [unquoteCaddy, quoted, last]
  obtain ⟨rfl, clean, rfl⟩ | ⟨rfl, back, rfl⟩ := which
  · rw [if_pos ⟨by simp, rfl, .inl rfl⟩, if_neg (by simp), inner_quoted]
  · rw [if_pos ⟨by simp, rfl, .inr rfl⟩, if_pos List.head?_cons, inner_quoted, unescape_escaped]

/-! ## What Caddy reads -/

/-- The token that stands after `before`, and what follows it, with the environment put in. -/
def tokenAt (env : List Char → Option (List Char)) (before after path : List Char) : Option (List Char × List Char) :=
  readToken ((expand env none (before ++ (caddyQuote path ++ after))).drop before.length)

/-- An import line at this place stands for a file. -/
def Imports (env : List Char → Option (List Char)) (before after path file : List Char) : Prop :=
  ∃ token rest, tokenAt env before after path = some (token, rest) ∧ Matches token file

/-- The token of a path in which no variable opens. -/
def denoted (path : List Char) : List Char := if '\x60' ∈ path then doubled path else path

theorem readQuoted_escaped (path rest : List Char) :
    readQuoted (escaped path ++ rest) = push (doubled path) (readQuoted rest) := by
  induction path with
  | nil => cases read : readQuoted rest <;> simp [escaped, doubled, replaceChars, push, read]
  | cons c path ih =>
    rw [escaped_cons, doubled_cons]
    split_ifs with slash quote
    · rw [List.append_assoc, List.cons_append, List.singleton_append, readQuoted, ih, push_push]
      decide
    · rw [List.append_assoc, List.cons_append, List.singleton_append, readQuoted, ih, push_push, quote]
    · rw [List.append_assoc, List.singleton_append, readQuoted, ih, push_push]
      · exact quote
      · exact fun _ same => absurd same slash
      · exact fun _ _ same => absurd same slash

theorem split_after {α : Type} {piece rest front back : List α} {x : α} (split : piece ++ rest = front ++ x :: back)
    (absent : x ∉ piece) : ∃ more, front = piece ++ more ∧ rest = more ++ x :: back := by
  rcases List.append_eq_append_iff.mp split with found | ⟨more, rfl, same⟩
  · exact found
  · cases more with
    | nil => exact ⟨[], by simp, by simpa using same.symm⟩
    | cons y more =>
      obtain rfl := (List.cons.inj same).1
      simp at absent

/-- A brace in an escaped path is one of the path. -/
theorem escaped_split {path front back : List Char} (split : escaped path = front ++ '{' :: back) :
    ∃ first second, path = first ++ '{' :: second ∧ front = escaped first ∧ back = escaped second := by
  induction path generalizing front with
  | nil => simp [escaped, doubled, replaceChars] at split
  | cons c path ih =>
    by_cases brace : c = '{'
    · subst brace
      rw [escaped_cons] at split
      cases front with
      | nil => exact ⟨[], path, rfl, rfl, (List.cons.inj split).2.symm⟩
      | cons d front =>
        obtain ⟨rfl, rest⟩ := List.cons.inj split
        obtain ⟨first, second, rfl, rfl, rfl⟩ := ih rest
        exact ⟨'{' :: first, second, rfl, (escaped_cons '{' first).symm, rfl⟩
    · rw [escaped_cons] at split
      have absent : '{' ∉ (if c = '\\' then ['\\', '\\'] else if c = '"' then ['\\', '"'] else [c]) := by
        split_ifs <;> simp [Ne.symm brace]
      obtain ⟨more, rfl, rest⟩ := split_after split absent
      obtain ⟨first, second, rfl, rfl, rfl⟩ := ih rest
      exact ⟨c :: first, second, rfl, (escaped_cons c first).symm, rfl⟩

theorem escaped_brace (path : List Char) : (escaped path).head? = some '}' ↔ path.head? = some '}' := by
  cases path with
  | nil => simp [escaped, doubled, replaceChars]
  | cons c path =>
    rw [escaped_cons]
    split_ifs with slash quote <;> simp [*]

theorem mem_escaped (path : List Char) : '}' ∈ escaped path ↔ '}' ∈ path := by
  induction path with
  | nil => simp [escaped, doubled, replaceChars]
  | cons c path ih =>
    rw [escaped_cons, List.mem_append, ih, List.mem_cons]
    refine or_congr_left ?_
    split_ifs with slash quote <;> simp [*]

theorem escaped_append (front back : List Char) : escaped (front ++ back) = escaped front ++ escaped back := by
  simp [escaped, doubled, replaceChars]

theorem opens_escaped {path after : List Char} : Opens (escaped path) after ↔ Opens path after := by
  constructor
  · rintro ⟨front, back, split, named, closed⟩
    obtain ⟨first, second, rfl, -, rest⟩ := escaped_split split
    cases second with
    | nil => simp [escaped, doubled, replaceChars] at rest
    | cons c second =>
      rw [escaped_cons] at rest
      split_ifs at rest with slash quote
      · simp at rest
      · simp at rest
      · rw [List.singleton_append] at rest
        obtain ⟨rfl, rfl⟩ := List.cons.inj rest
        rw [Ne, escaped_brace] at named
        rw [List.mem_append, mem_escaped, ← List.mem_append] at closed
        exact ⟨first, second, rfl, named, closed⟩
  · rintro ⟨front, back, rfl, named, closed⟩
    refine ⟨escaped front, escaped back, ?_, ?_, ?_⟩
    · rw [escaped_append, escaped_cons, escaped_cons]
      rfl
    · rwa [Ne, escaped_brace]
    · rwa [List.mem_append, mem_escaped, ← List.mem_append]

variable {before after path : List Char}

theorem tokenAt_eq (q : Char) (text : List Char) (quoted : caddyQuote path = q :: (text ++ [q]))
    (ends : q ≠ '{' ∧ q ≠ '$' ∧ q ≠ '}') (clear : ¬Opens before (caddyQuote path ++ after))
    (env : List Char → Option (List Char)) :
    tokenAt env before after path = readToken (q :: expand env none (text ++ q :: after)) := by
  have clear' : ¬Opens before (text ++ q :: after) := fun opens => clear (opens.congr fun mem => by
    rw [quoted]
    simpa using .inr (by simpa using mem))
  have front : before ++ (caddyQuote path ++ after) = before ++ q :: (text ++ q :: after) := by simp [quoted]
  rw [tokenAt, front, expand_append clear' ends, List.drop_left]

theorem tokenAt_quiet (clear : ¬Opens before (caddyQuote path ++ after)) (quiet : ¬Opens path after)
    (env : List Char → Option (List Char)) :
    tokenAt env before after path = some (denoted path, expand env none after) := by
  obtain ⟨q, text, quoted, ⟨rfl, clean, rfl⟩ | ⟨rfl, back, rfl⟩⟩ := caddyQuote_eq path
  · rw [tokenAt_eq _ _ quoted (by decide) clear, expand_append quiet (by decide), readToken, readRaw_append clean,
      readRaw, denoted, if_neg clean]
    simp [push]
  · rw [tokenAt_eq _ _ quoted (by decide) clear, expand_append (mt opens_escaped.mp quiet) (by decide), readToken,
      readQuoted_escaped, readQuoted, denoted, if_pos back]
    simp [push]

/-- A variable in the path may end the token before it. -/
theorem tokenAt_opens (clear : ¬Opens before (caddyQuote path ++ after)) (opens : Opens path after) :
    ∃ env first second rest, path = first ++ '{' :: second ∧
      tokenAt env before after path = some (if '\x60' ∈ path then doubled first else first, rest) := by
  obtain ⟨q, text, quoted, ⟨rfl, clean, rfl⟩ | ⟨rfl, back, rfl⟩⟩ := caddyQuote_eq path
  · obtain ⟨first, second, tail, rfl, value⟩ := @expand_opens _ after '\x60' ['\x60'] opens (by decide)
    have clean' : '\x60' ∉ first := fun mem => clean (List.mem_append_left _ mem)
    refine ⟨fun _ => some ['\x60'], first, _, tail, rfl, ?_⟩
    rw [tokenAt_eq _ _ quoted (by decide) clear, value, readToken, readRaw_append clean', List.singleton_append,
      readRaw, if_neg clean]
    simp [push]
  · obtain ⟨front, tail', tail, split, value⟩ :=
      @expand_opens _ after '"' ['"'] (opens_escaped.mpr opens) (by decide)
    obtain ⟨first, second, rfl, rfl, -⟩ := escaped_split split
    refine ⟨fun _ => some ['"'], first, second, tail, rfl, ?_⟩
    rw [tokenAt_eq _ _ quoted (by decide) clear, value, readToken, readQuoted_escaped, List.singleton_append,
      readQuoted, if_pos back]
    simp [push]

/-! ## Which paths survive -/

theorem count_doubled (path : List Char) : (doubled path).count '{' = path.count '{' := by
  induction path with
  | nil => rfl
  | cons c path ih =>
    rw [doubled_cons, List.count_append, ih, List.count_cons]
    split_ifs with slash brace <;> simp_all [Nat.add_comm]

theorem length_le_doubled (path : List Char) : path.length ≤ (doubled path).length := by
  induction path with
  | nil => exact Nat.le_refl _
  | cons c path ih =>
    rw [doubled_cons, List.length_append, List.length_cons]
    split_ifs <;> simp <;> omega

theorem doubled_eq_self_iff (path : List Char) : doubled path = path ↔ '\\' ∉ path := by
  induction path with
  | nil => simp [doubled, replaceChars]
  | cons c path ih =>
    rw [doubled_cons, List.mem_cons, not_or]
    split_ifs with slash
    · refine ⟨fun same => ?_, fun absent => absurd slash.symm absent.1⟩
      have size := congrArg List.length same
      have longer := length_le_doubled path
      simp only [List.length_append, List.length_cons, List.length_nil] at size
      omega
    · rw [List.singleton_append, List.cons_inj_right, ih]
      exact (and_iff_right (Ne.symm slash)).symm

theorem denoted_eq_self_iff (path : List Char) : denoted path = path ↔ ¬('\x60' ∈ path ∧ '\\' ∈ path) := by
  unfold denoted
  split_ifs with back
  · rw [doubled_eq_self_iff]
    tauto
  · simp [back]

theorem spelled_doubled (path : List Char) : spelled (doubled path) = path := by
  induction path with
  | nil => rfl
  | cons c path ih =>
    rw [doubled_cons]
    split_ifs with slash
    · rw [List.cons_append, List.singleton_append, spelled, ih, slash]
    · rw [List.singleton_append, spelled_cons (absurd · slash), ih]

theorem calm_doubled (path : List Char) : Calm (doubled path) ↔ ∀ c ∈ path, c ∉ ['*', '?', '['] := by
  induction path with
  | nil => simp [doubled, replaceChars, Calm]
  | cons c path ih =>
    rw [doubled_cons, List.forall_mem_cons]
    split_ifs with slash
    · rw [List.cons_append, List.singleton_append, Calm, ih, slash]
      simp
    · rw [List.singleton_append, calm_cons (absurd · slash), ih]
      simp [slash]

/-- The token of a path denotes the path as a site root or log file. -/
theorem tokenAt_iff (clear : ¬Opens before (caddyQuote path ++ after)) :
    (∀ env, tokenAt env before after path = some (path, expand env none after)) ↔
      ¬('\x60' ∈ path ∧ '\\' ∈ path) ∧ ¬Opens path after := by
  constructor
  · intro denotes
    have quiet : ¬Opens path after := by
      intro opens
      obtain ⟨env, first, second, rest, rfl, read⟩ := tokenAt_opens clear opens
      rw [denotes env] at read
      have same := congrArg (List.count '{') (Prod.mk.inj (Option.some_inj.mp read)).1
      split_ifs at same
      · rw [count_doubled, List.count_append, List.count_cons_self] at same
        omega
      · rw [List.count_append, List.count_cons_self] at same
        omega
    have read := tokenAt_quiet clear quiet fun _ => none
    rw [denotes] at read
    exact ⟨(denoted_eq_self_iff path).mp (Prod.mk.inj (Option.some_inj.mp read)).1.symm, quiet⟩
  · rintro ⟨whole, quiet⟩ env
    rw [tokenAt_quiet clear quiet, (denoted_eq_self_iff path).mpr whole]

theorem imports_iff_matches {env : List Char → Option (List Char)} {token rest : List Char}
    (read : tokenAt env before after path = some (token, rest)) (file : List Char) :
    Imports env before after path file ↔ Matches token file := by
  constructor
  · rintro ⟨token', rest', read', found⟩
    obtain rfl := (Prod.mk.inj (Option.some_inj.mp (read.symm.trans read'))).1
    exact found
  · exact fun found => ⟨token, rest, read, found⟩

/-- The token of a path denotes the path alone as an import. -/
theorem imports_iff (clear : ¬Opens before (caddyQuote path ++ after)) :
    (∀ env file, Imports env before after path file ↔ file = path) ↔
      (∀ c ∈ path, c ∉ ['*', '?', '[']) ∧ ('\\' ∈ path → '\x60' ∈ path) ∧ ¬Opens path after := by
  have whole : (∀ file, Matches (denoted path) file ↔ file = path) ↔
      (∀ c ∈ path, c ∉ ['*', '?', '[']) ∧ ('\\' ∈ path → '\x60' ∈ path) := by
    unfold denoted
    split_ifs with back
    · have spells := @matches_spelled_iff (doubled path)
      rw [spelled_doubled, calm_doubled] at spells
      simp [spells, back]
    · rw [matches_self_iff]
      constructor
      · intro plain
        refine ⟨fun c mem special => plain c mem ?_, fun slash => absurd (plain _ slash) (by simp)⟩
        simp only [List.mem_cons, List.not_mem_nil, or_false] at special ⊢
        tauto
      · rintro ⟨plain, slash⟩ c mem special
        have apart : c ≠ '\\' := fun same => back (slash (same ▸ mem))
        simp only [List.mem_cons, List.not_mem_nil, or_false, apart] at special
        exact plain c mem (by simpa using special)
  constructor
  · intro denotes
    have quiet : ¬Opens path after := by
      intro opens
      obtain ⟨env, first, second, rest, rfl, read⟩ := tokenAt_opens clear opens
      refine not_matches_only ?_ fun file => (imports_iff_matches read file).symm.trans (denotes env file)
      split_ifs
      · rw [spelled_doubled, List.length_append, List.length_cons]
        omega
      · have small := spelled_length_le first
        rw [List.length_append, List.length_cons]
        omega
    have read := tokenAt_quiet clear quiet fun _ => none
    obtain ⟨plain, slash⟩ := whole.mp fun file => (imports_iff_matches read file).symm.trans (denotes _ file)
    exact ⟨plain, slash, quiet⟩
  · rintro ⟨plain, slash, quiet⟩ env file
    rw [imports_iff_matches (tokenAt_quiet clear quiet env), whole.mpr ⟨plain, slash⟩]

/-! ## The patrol -/

/-- The body of a token in double quotes, with its escapes, and what follows it. -/
def escapedBody : List Char → Option (List Char × List Char)
  | [] => none
  | '"' :: text => some ([], text)
  | '\\' :: c :: text => push ['\\', c] (escapedBody text)
  | ['\\'] => none
  | c :: text => push [c] (escapedBody text)

/-- The quoted target at the start of a text, and what follows it. -/
def quotedTarget : List Char → Option (List Char × List Char)
  | '\x60' :: text => push ['\x60'] ((readRaw text).map fun read => (read.1 ++ ['\x60'], read.2))
  | '"' :: text => push ['"'] ((escapedBody text).map fun read => (read.1 ++ ['"'], read.2))
  | _ => none

/-- The target of `_IMPORT_RE`; a quoted one that something follows is read as a word. -/
def targetOf (text : List Char) : Option (List Char) :=
  match (quotedTarget text).filter fun read => read.2.all isSpace with
  | some read => some read.1
  | none =>
    let word := text.takeWhile fun c => !isSpace c
    if word ≠ [] ∧ (text.drop word.length).all isSpace then some word else none

def importName : List Char := ['i', 'm', 'p', 'o', 'r', 't']

/-- `_IMPORT_RE.match(line)` -/
def importTarget (line : List Char) : Option (List Char) :=
  let text := line.dropWhile isSpace
  let rest := text.drop importName.length
  if importName <+: text ∧ (rest.head?.any isSpace) then targetOf (rest.dropWhile isSpace) else none

/-- What `check_caddy` reports. -/
structure Drifts (π : Type*) where
  missing : List π
  unused : List π

/-- `check_caddy` of a main file and the fragments of the instances, where `path` is `Path` -/
def checkCaddy {π ρ : Type*} [DecidableEq ρ] (path : List Char → π) (resolve : π → ρ) (isFile : π → Bool)
    (content : List Char) (fragments : List π) : Drifts π :=
  let targets := (splitlines content).filterMap fun line => (importTarget line).map (path ∘ unquoteCaddy)
  ⟨targets.filter fun target => !isFile target, fragments.filter fun fragment =>
    resolve fragment ∉ targets.map resolve⟩

/-- A line of `_assemble_main_config`. -/
def importLine (indent : List Char) (path : List Char) : List Char := indent ++ importName ++ ' ' :: caddyQuote path

theorem escapedBody_escaped (path rest : List Char) :
    escapedBody (escaped path ++ '"' :: rest) = some (escaped path, rest) := by
  induction path with
  | nil => rfl
  | cons c path ih =>
    rw [escaped_cons]
    split_ifs with slash quote
    · rw [List.append_assoc, List.cons_append, List.singleton_append, escapedBody, ih]
      rfl
    · rw [List.append_assoc, List.cons_append, List.singleton_append, escapedBody, ih]
      rfl
    · rw [List.append_assoc, List.singleton_append, escapedBody, ih]
      · rfl
      · exact quote
      · exact fun _ _ same => absurd same slash
      · exact fun same => absurd same slash

theorem targetOf_quote (path : List Char) : targetOf (caddyQuote path) = some (caddyQuote path) := by
  have read : quotedTarget (caddyQuote path) = some (caddyQuote path, []) := by
    obtain ⟨q, text, quoted, ⟨rfl, clean, rfl⟩ | ⟨rfl, back, rfl⟩⟩ := caddyQuote_eq path
    · rw [quoted, quotedTarget, readRaw_append clean, readRaw]
      simp [push]
    · rw [quoted, quotedTarget, escapedBody_escaped]
      simp [push]
  rw [targetOf, read]
  rfl

/-- The patrol finds the path in an import line. -/
theorem importTarget_line {indent : List Char} (blank : ∀ c ∈ indent, isSpace c = true) (path : List Char) :
    importTarget (importLine indent path) = some (caddyQuote path) := by
  have text : (importLine indent path).dropWhile isSpace = importName ++ ' ' :: caddyQuote path := by
    rw [importLine, List.append_assoc, List.dropWhile_append_of_pos blank]
    rfl
  have start : (caddyQuote path).dropWhile isSpace = caddyQuote path := by
    obtain ⟨q, text, quoted, ⟨rfl, -⟩ | ⟨rfl, -⟩⟩ := caddyQuote_eq path
    · rw [quoted]
      rfl
    · rw [quoted]
      rfl
  rw [importTarget, text, List.drop_left, if_pos ⟨List.prefix_append _ _, rfl⟩, List.dropWhile_cons_of_pos rfl, start,
    targetOf_quote]

/-- What Caddy and the patrol read in the token of a path: Caddy the path, but where it has a backslash beside a
backquote or opens a variable, and as an import the path alone, but where it is a pattern; the patrol the path. -/
theorem caddyQuote_spec {π ρ : Type*} [DecidableEq ρ] (toPath : List Char → π) (resolve : π → ρ) (isFile : π → Bool)
    (path : List Char) :
    (∀ before after, ¬Opens before (caddyQuote path ++ after) →
        ((∀ env, tokenAt env before after path = some (path, expand env none after)) ↔
          ¬('\x60' ∈ path ∧ '\\' ∈ path) ∧ ¬Opens path after)) ∧
      (∀ before after, ¬Opens before (caddyQuote path ++ after) →
        ((∀ env file, Imports env before after path file ↔ file = path) ↔
          (∀ c ∈ path, c ∉ ['*', '?', '[']) ∧ ('\\' ∈ path → '\x60' ∈ path) ∧ ¬Opens path after)) ∧
      unquoteCaddyPath (caddyQuote path) = path ∧ unquoteCaddy (caddyQuote path) = path ∧
      ∀ content fragments,
        (∀ target ∈ (checkCaddy toPath resolve isFile content fragments).missing, isFile target = false) ∧
        ∀ indent, (∀ c ∈ indent, isSpace c = true) → importLine indent path ∈ splitlines content →
          (toPath path ∈ (checkCaddy toPath resolve isFile content fragments).missing ↔ isFile (toPath path) = false) ∧
          ∀ fragment ∈ (checkCaddy toPath resolve isFile content fragments).unused,
            resolve fragment ≠ resolve (toPath path) := by
  refine ⟨fun _ _ => tokenAt_iff, fun _ _ => imports_iff, unquoteCaddyPath_quote path, unquoteCaddy_quote path, ?_⟩
  intro content fragments
  refine ⟨fun target found => by simpa using (List.mem_filter.mp found).2, fun indent blank line => ?_⟩
  have target : toPath path ∈ (splitlines content).filterMap fun line =>
      (importTarget line).map (toPath ∘ unquoteCaddy) := by
    refine List.mem_filterMap.mpr ⟨_, line, ?_⟩
    rw [importTarget_line blank, Option.map_some, Function.comp_apply, unquoteCaddy_quote]
  constructor
  · unfold checkCaddy
    rw [List.mem_filter]
    simpa using fun _ => target
  · intro fragment found same
    have absent := of_decide_eq_true (List.mem_filter.mp found).2
    exact absent (same ▸ List.mem_map_of_mem target)

/-- A directory with brackets is lost as an import, and a backslash beside a backquote everywhere. -/
theorem brackets_lost :
    (¬∀ path before after, ¬Opens before (caddyQuote path ++ after) →
      ∀ env file, Imports env before after path file ↔ file = path) ∧
    ¬∀ path before after, ¬Opens before (caddyQuote path ++ after) →
      ∀ env, tokenAt env before after path = some (path, expand env none after) := by
  have clear : ∀ after, ¬Opens [] after := by
    rintro after ⟨front, back, empty, -⟩
    simp at empty
  constructor
  · intro survive
    have plain := ((imports_iff (clear _)).mp (survive "/srv/w[1]/a.conf".toList [] ['\n'] (clear _))).1
    exact plain '[' (by decide) (by decide)
  · intro survive
    have whole := ((tokenAt_iff (clear _)).mp (survive "/srv/\x60\\".toList [] ['\n'] (clear _))).1
    exact whole (by decide)

end LocalWebAccess.CaddyPaths
