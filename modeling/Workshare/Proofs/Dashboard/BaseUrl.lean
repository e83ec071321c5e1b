import Workshare.Dashboard
import Workshare.Proofs.Text.Blank

namespace Workshare.Dashboard

open Blank

def IsBlank (text : String) : Prop :=
  ∀ c ∈ text.toList, isBlank c

def EndsBlank (text : String) : Prop :=
  ∃ c ∈ text.toList.getLast?, isBlank c

def schemes : List String :=
  ["http://", "https://"]

/-- A text that begins with a scheme. -/
def Schemed (cs : List Char) : Prop :=
  ∃ scheme ∈ schemes, scheme.toList <+: cs

instance (text : String) : Decidable (IsBlank text) :=
  decidable_of_iff (text.toList.all isBlank = true) List.all_eq_true

instance (text : String) : Decidable (EndsBlank text) :=
  decidable_of_iff (text.toList.getLast?.any isBlank = true) (Option.any_eq_true _ _)

instance (cs : List Char) : Decidable (Schemed cs) :=
  inferInstanceAs (Decidable (∃ scheme ∈ schemes, scheme.toList <+: cs))

/-- A URL to which paths can be appended. -/
structure IsBase (url : String) : Prop where
  schemed : Schemed url.toList
  unslashed : '/' ∉ url.toList.getLast?
  not_bare : url ∉ ["http://", "https://", "http:", "https:"]

/-- What may follow a scheme: something, without a slash at its end. -/
def Host (cs : List Char) : Prop :=
  ∃ c ∈ cs.getLast?, c ≠ '/'

/-- The URL that a text spells out, in full or without its scheme, with blanks around it and slashes behind it. -/
inductive Spells (text : String) : String → Prop
  | whole {scheme : String} {host slashes : List Char} :
      scheme ∈ schemes → Host host → (∀ c ∈ slashes, c = '/') →
      Padded text.toList (scheme.toList ++ host ++ slashes) → Spells text (scheme ++ String.ofList host)
  | short {host slashes : List Char} :
      Host host → (∀ c ∈ slashes, c = '/') → ¬Schemed (host ++ slashes) →
      Padded text.toList (host ++ slashes) → Spells text ("http://" ++ String.ofList host)

theorem mem_schemes {scheme : String} : scheme ∈ schemes ↔ scheme = "http://" ∨ scheme = "https://" := by
  simp [schemes]

theorem hasScheme_iff {url : String} : hasScheme url = true ↔ Schemed url.toList := by
  simp [hasScheme, Schemed, schemes]

theorem last_of_scheme {scheme : String} (known : scheme ∈ schemes) : scheme.toList.getLast? = some '/' := by
  rcases mem_schemes.mp known with rfl | rfl <;> rfl

theorem head_of_schemed {cs : List Char} (schemed : Schemed cs) : cs.head? = some 'h' := by
  obtain ⟨scheme, known, rest, rfl⟩ := schemed
  rcases mem_schemes.mp known with rfl | rfl <;> rfl

theorem first_of_schemed {cs : List Char} (schemed : Schemed cs) : ∀ c ∈ cs.head?, ¬isBlank c := by
  intro c first
  rw [head_of_schemed schemed, Option.mem_some] at first
  rw [← first]
  decide

theorem not_blank_of_schemed {url : String} (schemed : Schemed url.toList) : ¬IsBlank url := by
  intro blank
  have first := head_of_schemed schemed
  exact first_of_schemed schemed 'h' first (blank 'h' (List.mem_of_head? first))

/-- The blanks behind a text are no part of its scheme. -/
theorem schemed_trim {cs : List Char} (schemed : Schemed cs) : Schemed (trim cs) := by
  have front : cs.dropWhile isBlank = cs := dropWhile_eq_self (first_of_schemed schemed)
  obtain ⟨scheme, known, host, rfl⟩ := schemed
  have kept : ∀ c ∈ scheme.toList.getLast?, ¬isBlank c := by
    intro c last
    rw [last_of_scheme known, Option.mem_some] at last
    rw [← last]
    decide
  refine ⟨scheme, known, trimEnd isBlank host, ?_⟩
  rw [trim, front, trimEnd_append kept]

theorem isBase_iff {url : String} : IsBase url ↔ Schemed url.toList ∧ '/' ∉ url.toList.getLast? := by
  constructor
  · intro base
    exact ⟨base.schemed, base.unslashed⟩
  · rintro ⟨schemed, unslashed⟩
    refine ⟨schemed, unslashed, fun bare => ?_⟩
    simp only [List.mem_cons, List.not_mem_nil, or_false] at bare
    rcases bare with rfl | rfl | rfl | rfl
    · exact unslashed rfl
    · exact unslashed rfl
    · exact absurd schemed (by decide)
    · exact absurd schemed (by decide)

theorem unslashed_append {scheme : String} {host : List Char} (known : scheme ∈ schemes) :
    '/' ∉ (scheme.toList ++ host).getLast? ↔ Host host := by
  rw [List.getLast?_append, last_of_scheme known, Host]
  cases host.getLast? with
  | none => simp
  | some c => simp

theorem isBase_append {scheme : String} {host : List Char} (known : scheme ∈ schemes) :
    IsBase (scheme ++ String.ofList host) ↔ Host host := by
  rw [isBase_iff, String.toList_append, String.toList_ofList, unslashed_append known]
  exact and_iff_right ⟨scheme, known, List.prefix_append _ _⟩

/-- The scheme is HTTP where none is written. -/
def withScheme (cs : List Char) : List Char :=
  if Schemed cs then cs else "http://".toList ++ cs

theorem schemed_withScheme (cs : List Char) : Schemed (withScheme cs) := by
  unfold withScheme
  split
  next schemed => exact schemed
  next => exact ⟨"http://", .head _, List.prefix_append _ _⟩

theorem trimEnd_slash_iff {cs kept : List Char} : trimEnd (· = '/') cs = kept ↔
    '/' ∉ kept.getLast? ∧ ∃ slashes, cs = kept ++ slashes ∧ ∀ c ∈ slashes, c = '/' := by
  rw [trimEnd_eq_iff]
  simp only [decide_eq_true_eq]
  refine and_congr_left fun _ => ?_
  constructor
  · intro h slash
    exact h _ slash rfl
  · rintro h c last rfl
    exact h last

/-- A text spells out the one base that is left of it without the blanks around it and the slashes behind it. -/
theorem spells_iff {text url : String} :
    Spells text url ↔ IsBase url ∧ trimEnd (· = '/') (withScheme (trim text.toList)) = url.toList := by
  constructor
  · intro spelled
    cases spelled with
    | @whole scheme host slashes known named all padded =>
      have schemed : Schemed (scheme.toList ++ host ++ slashes) :=
        ⟨scheme, known, by rw [List.append_assoc]; exact List.prefix_append _ _⟩
      refine ⟨(isBase_append known).mpr named, ?_⟩
      rw [trim_eq_iff.mpr padded, withScheme, if_pos schemed, String.toList_append, String.toList_ofList]
      exact trimEnd_slash_iff.mpr ⟨(unslashed_append known).mpr named, slashes, rfl, all⟩
    | @short host slashes named all plain padded =>
      have known : "http://" ∈ schemes := .head _
      refine ⟨(isBase_append known).mpr named, ?_⟩
      rw [trim_eq_iff.mpr padded, withScheme, if_neg plain]
      simp only [String.toList_append, String.toList_ofList]
      exact trimEnd_slash_iff.mpr ⟨(unslashed_append known).mpr named, slashes, (List.append_assoc _ _ _).symm, all⟩
  · rintro ⟨base, read⟩
    obtain ⟨scheme, known, host, begins⟩ := base.schemed
    obtain ⟨-, slashes, written, all⟩ := trimEnd_slash_iff.mp read
    have parts : url = scheme ++ String.ofList host := by
      rw [← String.toList_inj, String.toList_append, String.toList_ofList, begins]
    rw [parts] at base
    have named := (isBase_append known).mp base
    rw [← begins] at written
    rw [parts]
    by_cases schemed : Schemed (trim text.toList)
    · rw [withScheme, if_pos schemed] at written
      exact .whole known named all (trim_eq_iff.mp written)
    · rw [withScheme, if_neg schemed] at written
      rcases mem_schemes.mp known with rfl | rfl
      · rw [List.append_assoc] at written
        have rest := List.append_cancel_left written
        rw [rest] at schemed
        exact .short named all schemed (trim_eq_iff.mp rest)
      -- the scheme that is added is not this one
      · simp at written

theorem slashless_of_scheme {scheme url : String} (known : scheme ∈ schemes)
    (h : trimEnd (· = '/') scheme.toList = url.toList) : url = "http:" ∨ url = "https:" := by
  rcases mem_schemes.mp known with rfl | rfl
  · exact .inl (String.toList_inj.mp (h.symm.trans rfl))
  · exact .inr (String.toList_inj.mp (h.symm.trans rfl))

theorem isBase_or_bare {url : String} {core : List Char} (read : trimEnd (· = '/') (withScheme core) = url.toList) :
    IsBase url ∨ url = "http:" ∨ url = "https:" := by
  obtain ⟨unslashed, slashes, written, all⟩ := trimEnd_slash_iff.mp read
  obtain ⟨scheme, known, host, begins⟩ := schemed_withScheme core
  rw [written] at begins
  rcases List.append_eq_append_iff.mp begins with ⟨more, longer, -⟩ | ⟨lost, shorter, rest⟩
  · exact .inl (isBase_iff.mpr ⟨⟨scheme, known, more, longer.symm⟩, unslashed⟩)
  · have only_slashes : ∀ c ∈ lost, c = '/' := fun c hc => all c (rest ▸ List.mem_append_left host hc)
    exact .inr (slashless_of_scheme known (trimEnd_slash_iff.mpr ⟨unslashed, lost, shorter, only_slashes⟩))

theorem toList_resolveUrl (nodeUrl : String) (override : Option String) :
    (resolveUrl nodeUrl override).toList =
      if IsBlank (override.getD nodeUrl) then nodeUrl.toList
      else trimEnd (· = '/') (withScheme (trim (override.getD nodeUrl).toList)) := by
  have blank : (String.ofList (trim (override.getD nodeUrl).toList)).isEmpty ↔ IsBlank (override.getD nodeUrl) := by
    rw [String.isEmpty_iff, String.ofList_eq_empty_iff, trim_eq_nil_iff]
    rfl
  unfold resolveUrl configuredUrl withScheme
  simp only [blank, hasScheme_iff, String.toList_ofList]
  split
  next => rfl
  next =>
    rw [String.toList_ofList]
    split
    next => rw [String.toList_ofList]
    next => simp only [String.toList_append, String.toList_ofList]

theorem resolveUrl_of_blank {nodeUrl : String} {override : Option String} (blank : IsBlank (override.getD nodeUrl)) :
    resolveUrl nodeUrl override = nodeUrl := by
  rw [← String.toList_inj, toList_resolveUrl, if_pos blank]

theorem resolveUrl_of_text {nodeUrl : String} {override : Option String} (text : ¬IsBlank (override.getD nodeUrl)) :
    trimEnd (· = '/') (withScheme (trim (override.getD nodeUrl).toList)) = (resolveUrl nodeUrl override).toList := by
  rw [toList_resolveUrl, if_neg text]

/-- Something is called, whatever the override is. -/
theorem resolveUrl_not_blank {nodeUrl : String} (named : ¬IsBlank nodeUrl) (override : Option String) :
    ¬IsBlank (resolveUrl nodeUrl override) := by
  by_cases blank : IsBlank (override.getD nodeUrl)
  · rwa [resolveUrl_of_blank blank]
  · rcases isBase_or_bare (resolveUrl_of_text blank) with base | bare | bare
    · exact not_blank_of_schemed base.schemed
    · rw [bare]
      decide
    · rw [bare]
      decide

/-- What is read as itself, whatever the configured URL: a base that does not end in a blank. -/
theorem resolveUrl_eq_self_iff {nodeUrl url : String} (named : ¬IsBlank url) :
    resolveUrl nodeUrl (some url) = url ↔ IsBase url ∧ ¬EndsBlank url := by
  rw [← String.toList_inj, toList_resolveUrl, Option.getD_some, if_neg named]
  constructor
  · intro same
    rcases isBase_or_bare same with base | rfl | rfl
    · rw [withScheme, if_pos (schemed_trim base.schemed)] at same
      have bare := bare_of_trimEnd_trim same
      refine ⟨base, ?_⟩
      rintro ⟨c, last, blank⟩
      exact bare.last c last blank
    · exact absurd same (by decide)
    · exact absurd same (by decide)
  · rintro ⟨base, closed⟩
    have bare : Bare url.toList := ⟨first_of_schemed base.schemed, fun c last blank => closed ⟨c, last, blank⟩⟩
    rw [trim_eq_self_iff.mpr bare, withScheme, if_pos base.schemed]
    exact trimEnd_slash_iff.mpr ⟨base.unslashed, [], by simp, by simp⟩

/-- The URL that is called. With no override, or one that is not blank, it is the base that the text spells out, and no
base if the text spells none. A blank override means the configured URL as it stands, which is a base if it has a scheme,
and is what is called without an override if it does not end in a blank either. What was resolved is resolved to itself
exactly if it is a base that does not end in a blank. -/
theorem resolveUrl_base {url nodeUrl : String} (configured : configuredUrl url = nodeUrl) (named : ¬IsBlank nodeUrl)
    (override : Option String) :
    ((∀ text ∈ override, ¬IsBlank text) → ∀ base,
        IsBase base ∧ resolveUrl nodeUrl override = base ↔ Spells (override.getD nodeUrl) base) ∧
      ((∃ text ∈ override, IsBlank text) →
        (IsBase (resolveUrl nodeUrl override) ↔ Schemed nodeUrl.toList) ∧
        (resolveUrl nodeUrl override = resolveUrl nodeUrl none ↔ Schemed nodeUrl.toList ∧ ¬EndsBlank nodeUrl)) ∧
      (resolveUrl nodeUrl (some (resolveUrl nodeUrl override)) = resolveUrl nodeUrl override ↔
        IsBase (resolveUrl nodeUrl override) ∧ ¬EndsBlank (resolveUrl nodeUrl override)) := by
  refine ⟨fun given base => ?_, ?_, resolveUrl_eq_self_iff (resolveUrl_not_blank named override)⟩
  · have text : ¬IsBlank (override.getD nodeUrl) := by
      cases override with
      | none => exact named
      | some text => exact given text rfl
    rw [spells_iff, resolveUrl_of_text text, String.toList_inj]
  · rintro ⟨text, rfl, blank⟩
    have unslashed : '/' ∉ nodeUrl.toList.getLast? := by
      rw [← configured, configuredUrl, String.toList_ofList]
      exact (trimEnd_slash_iff.mp rfl).1
    have base : IsBase nodeUrl ↔ Schemed nodeUrl.toList := isBase_iff.trans (and_iff_left unslashed)
    have default : resolveUrl nodeUrl none = resolveUrl nodeUrl (some nodeUrl) := rfl
    have stands : resolveUrl nodeUrl (some text) = nodeUrl := resolveUrl_of_blank blank
    rw [stands, default, eq_comm, resolveUrl_eq_self_iff named, base]
    exact ⟨Iff.rfl, Iff.rfl⟩

theorem resolveUrl_base_padded :
    configuredUrl "https://node-a:6000/" = "https://node-a:6000" ∧ ¬IsBlank "https://node-a:6000" ∧
      Spells " node-b:6001// " "http://node-b:6001" ∧
      (IsBase "http://node-b:6001" ∧
        resolveUrl "https://node-a:6000" (some " node-b:6001// ") = "http://node-b:6001") ∧
      resolveUrl "https://node-a:6000" (some "http://node-b:6001") = "http://node-b:6001" ∧
      resolveUrl "https://node-a:6000" (some " \t") = resolveUrl "https://node-a:6000" none := by
  have configured : configuredUrl "https://node-a:6000/" = "https://node-a:6000" := by decide
  have named : ¬IsBlank "https://node-a:6000" := by decide
  have spelled : Spells " node-b:6001// " "http://node-b:6001" := by
    refine @Spells.short " node-b:6001// " "node-b:6001".toList "//".toList ?_ ?_ ?_ ?_
    · exact ⟨'1', rfl, by decide⟩
    · simp
    · decide
    · exact trim_eq_iff.mp (by decide)
  obtain ⟨read, -, again⟩ := resolveUrl_base configured named (some " node-b:6001// ")
  have given : ∀ text ∈ some " node-b:6001// ", ¬IsBlank text := by
    intro text same
    rw [← Option.mem_some.mp same]
    decide
  obtain ⟨base, same⟩ := (read given "http://node-b:6001").mpr spelled
  rw [same] at again
  obtain ⟨-, blank, -⟩ := resolveUrl_base configured named (some " \t")
  have default := (blank ⟨" \t", rfl, by decide⟩).2.mpr ⟨by decide, by decide⟩
  exact ⟨configured, named, spelled, ⟨base, same⟩, again.mpr ⟨base, by decide⟩, default⟩

/-- A blank override goes round the scheme that the configured URL lacks. A text of slashes takes those of the scheme
with it, and a blank before the last slashes is only dropped when the URL is read again. -/
theorem override_astray :
    (configuredUrl "localhost:6000" = "localhost:6000" ∧ ¬IsBlank "localhost:6000") ∧
      (IsBlank " " ∧ resolveUrl "localhost:6000" (some " ") = "localhost:6000" ∧ ¬IsBase "localhost:6000" ∧
        resolveUrl "localhost:6000" none = "http://localhost:6000") ∧
      (resolveUrl "localhost:6000" (some "/") = "http:" ∧ ¬IsBase "http:") ∧
      resolveUrl "localhost:6000" (some "a /") = "http://a " ∧
      resolveUrl "localhost:6000" (some "http://a ") = "http://a" := by
  have reads : ∀ (override : Option String) (base : String),
      (if IsBlank (override.getD "localhost:6000") then "localhost:6000".toList
        else trimEnd (· = '/') (withScheme (trim (override.getD "localhost:6000").toList))) = base.toList →
      resolveUrl "localhost:6000" override = base := by
    intro override base h
    rw [← String.toList_inj, toList_resolveUrl, h]
  refine ⟨⟨by decide, by decide⟩, ⟨by decide, reads _ _ (by decide), ?_, reads _ _ (by decide)⟩,
    ⟨reads _ _ (by decide), ?_⟩, reads _ _ (by decide), reads _ _ (by decide)⟩
  · exact fun base => absurd base.schemed (by decide)
  · exact fun base => absurd base.schemed (by decide)

end Workshare.Dashboard
