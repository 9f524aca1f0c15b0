import Mathlib
import Temper.Platform.AppBundle.Manifest

/-!
# The digest of a manifest and its records

The parts that are hashed carry no counts. Read from the end they still tell the files from the
names, but where the dependencies of an application end and the next application starts is left
open when two version strings are names of applications.
-/

namespace Temper.Platform.AppBundle

open Framing
open Temper.Spec.Bundle (utf8 utf8_inj hex_inj length_utf8)

/-! ### Reading the parts from the end -/

inductive Token
  | plain (text : Text)
  | file (f : CanonicalFileManifest)
  deriving DecidableEq

def Token.parts : Token → List Bytes
  | .plain text => [utf8 text]
  | .file f => f.parts

def CanonicalAppManifest.tokens (app : CanonicalAppManifest) : List Token :=
  .plain app.name :: .plain app.version :: (app.dependencies.map .plain ++ app.files.map .file)

def tokens (apps : List CanonicalAppManifest) : List Token :=
  apps.flatMap CanonicalAppManifest.tokens

@[simp] lemma tokens_nil : tokens [] = [] := rfl

@[simp] lemma tokens_cons (app : CanonicalAppManifest) (apps : List CanonicalAppManifest) :
    tokens (app :: apps) = app.tokens ++ tokens apps := rfl

lemma parts_eq_tokens (app : CanonicalAppManifest) :
    app.parts = app.tokens.flatMap Token.parts := by
  have hnames : (app.dependencies.map Token.plain).flatMap Token.parts =
      app.dependencies.map (fun dependency : Text => utf8 dependency) := by
    rw [List.flatMap_map]
    exact List.flatMap_pure_eq_map _ _
  have hfiles : (app.files.map Token.file).flatMap Token.parts =
      app.files.flatMap CanonicalFileManifest.parts := List.flatMap_map _ _ _
  rw [CanonicalAppManifest.parts, CanonicalAppManifest.tokens, List.flatMap_cons,
    List.flatMap_cons, List.flatMap_append, hnames, hfiles]
  rfl

/-- A part that can be the digest of a file: it has a colon. -/
def DigestLike (bytes : Bytes) : Prop := 58 ∈ bytes

/-- A part that can be the size of a file: it starts with a zero byte. -/
def SizeLike (bytes : Bytes) : Prop := bytes.head? = some 0

/-- Tokens from the last to the first, where a text that looks like a digest does not come after
one that looks like a size. -/
def Readable : List Token → Prop
  | [] => True
  | .plain text :: rest =>
    (DigestLike (utf8 text) → ∃ u rest', rest = .plain u :: rest' ∧ ¬ SizeLike (utf8 u)) ∧
      Readable rest
  | .file file :: rest =>
    (DigestLike (utf8 file.blobDigest) ∧ SizeLike (beBytes 8 file.size.toNat)) ∧ Readable rest

lemma parts_inj {f g : CanonicalFileManifest} (h : f.parts = g.parts) : f = g := by
  simp only [CanonicalFileManifest.parts, List.cons.injEq, utf8_inj, and_true] at h
  obtain ⟨hpath, hsize, hdigest⟩ := h
  have hnat : f.size.toNat = g.size.toNat :=
    (beBytes_inj f.size.toNat_lt g.size.toNat_lt).mp hsize
  cases f
  cases g
  simp_all [Subtype.ext_iff, UInt64.toNat_inj]

variable {rest : List Token}

/-- A text is not read as a file. -/
lemma plain_ne_file {text : Text} {file : CanonicalFileManifest} {rest' : List Token}
    (h : Readable (.plain text :: rest)) (h' : Readable (.file file :: rest'))
    (heq : (Token.plain text :: rest).flatMap (List.reverse ∘ Token.parts) =
      (Token.file file :: rest').flatMap (List.reverse ∘ Token.parts)) : False := by
  simp only [List.flatMap_cons, Function.comp_apply, Token.parts, CanonicalFileManifest.parts,
    List.reverse_cons, List.reverse_nil, List.nil_append, List.cons_append, List.cons.injEq] at heq
  obtain ⟨htext, hrest⟩ := heq
  obtain ⟨u, rest, rfl, hu⟩ := h.1 (htext ▸ h'.1.1)
  simp only [List.flatMap_cons, Function.comp_apply, Token.parts, List.reverse_cons,
    List.reverse_nil, List.nil_append, List.cons_append, List.cons.injEq] at hrest
  exact hu (hrest.1 ▸ h'.1.2)

theorem eq_of_readable {s t : List Token} (hs : Readable s) (ht : Readable t)
    (h : s.flatMap (List.reverse ∘ Token.parts) = t.flatMap (List.reverse ∘ Token.parts)) :
    s = t := by
  induction s generalizing t with
  | nil =>
    cases t with
    | nil => rfl
    | cons b t => cases b <;> simp [Token.parts, CanonicalFileManifest.parts] at h
  | cons a s ih =>
    cases t with
    | nil => cases a <;> simp [Token.parts, CanonicalFileManifest.parts] at h
    | cons b t =>
      cases a with
      | plain text =>
        cases b with
        | plain text' =>
          simp only [List.flatMap_cons, Function.comp_apply, Token.parts, List.reverse_singleton,
            List.singleton_append, List.cons.injEq, utf8_inj] at h
          rw [Subtype.ext h.1, ih hs.2 ht.2 h.2]
        | file file => exact (plain_ne_file hs ht h).elim
      | file file =>
        cases b with
        | plain text => exact (plain_ne_file ht hs h.symm).elim
        | file file' =>
          simp only [List.flatMap_cons, Function.comp_apply, Token.parts] at h
          obtain ⟨hfile, hrest⟩ := List.append_inj h (by simp [CanonicalFileManifest.parts])
          rw [parts_inj (List.reverse_injective hfile), ih hs.2 ht.2 hrest]

/-! ### The tokens of an application -/

variable {value : String}

lemma IsComponent.not_mem (h : IsComponent value) {b : UInt8} (hb : isComponentByte b = false) :
    b ∉ utf8 value := by
  intro hmem
  have hbyte := List.all_eq_true.mp h.2.2.2.2 b hmem
  rw [hb] at hbyte
  cases hbyte

lemma IsComponent.not_digestLike (h : IsComponent value) :
    ¬ DigestLike (utf8 value) := h.not_mem (by decide)

lemma IsComponent.not_sizeLike (h : IsComponent value) : ¬ SizeLike (utf8 value) := by
  intro hhead
  exact h.not_mem (b := 0) (by decide) (List.mem_of_mem_head? hhead)

lemma digestLike_of_digestHex {digest : String} {hex : List Char}
    (h : digestHex digest = .ok hex) : DigestLike (utf8 digest) := by
  unfold digestHex at h
  split_ifs at h with hpre
  obtain ⟨rest, hrest⟩ := List.isPrefixOf_iff_prefix.mp hpre
  have hdigest : digest = "sha256:" ++ String.ofList rest := by
    rw [← String.toList_inj, ← hrest]
    simp
  have hcolon : (58 : UInt8) ∈ utf8 "sha256:" := by decide +kernel
  rw [hdigest, DigestLike, utf8, String.toByteArray_append]
  rw [utf8] at hcolon
  simp [Array.mem_toList_iff.mp hcolon]

lemma sizeLike_of_le {n : Nat} (h : n ≤ maxBundleFileBytes) : SizeLike (beBytes 8 n) := by
  have hzero : n / 256 ^ 7 = 0 := Nat.div_eq_of_lt (by simp [maxBundleFileBytes] at h; omega)
  rw [SizeLike, beBytes, hzero]
  rfl

lemma readable_files {files : List CanonicalFileManifest}
    (hfiles : ∀ f ∈ files, (∃ hex, digestHex f.blobDigest = .ok hex) ∧
      f.size.toNat ≤ maxBundleFileBytes) (h : Readable rest) :
    Readable (files.map .file ++ rest) := by
  induction files with
  | nil => exact h
  | cons f files ih =>
    obtain ⟨⟨hex, hhex⟩, hsize⟩ := hfiles f (by simp)
    exact ⟨⟨digestLike_of_digestHex hhex, sizeLike_of_le hsize⟩,
      ih fun g hg => hfiles g (by simp [hg])⟩

lemma readable_plain {names : List Text} (hnames : ∀ name ∈ names, IsComponent name)
    (h : Readable rest) : Readable (names.map .plain ++ rest) := by
  induction names with
  | nil => exact h
  | cons name names ih =>
    exact ⟨fun hdigest => absurd hdigest (hnames name (by simp)).not_digestLike,
      ih fun n hn => hnames n (by simp [hn])⟩

/-- The dependencies and files of an application. -/
lemma AppRules.readable {app : CanonicalAppManifest} (h : AppRules app) (hrest : Readable rest) :
    Readable ((app.dependencies.map Token.plain ++ app.files.map Token.file).reverse ++ rest) := by
  rw [List.reverse_append, ← List.map_reverse, ← List.map_reverse, List.append_assoc]
  apply readable_files fun f hf => h.files f (List.mem_reverse.mp hf)
  exact readable_plain (fun d hd => h.component d (List.mem_reverse.mp hd)) hrest

lemma readable_tokens {apps : List CanonicalAppManifest}
    (hname : ∀ a ∈ apps, IsComponent a.name) (hrules : ∀ a ∈ apps, AppRules a) :
    Readable (tokens apps).reverse := by
  induction apps using List.reverseRecOn with
  | nil => exact trivial
  | append_singleton apps app ih =>
    have happ := hname app (by simp)
    have hbefore := ih (fun a ha => hname a (by simp [ha])) (fun a ha => hrules a (by simp [ha]))
    have htokens : (tokens (apps ++ [app])).reverse =
        (app.dependencies.map Token.plain ++ app.files.map Token.file).reverse ++
          .plain app.version :: .plain app.name :: (tokens apps).reverse := by
      simp [tokens, CanonicalAppManifest.tokens]
    rw [htokens]
    apply (hrules app (by simp)).readable
    exact ⟨fun _ => ⟨_, _, rfl, happ.not_sizeLike⟩,
      fun hdigest => absurd hdigest happ.not_digestLike, hbefore⟩

/-! ### Splitting tokens -/

variable {S : List Token} {S' : List Token}

/-- Two sequences of names with something behind them agree, or one of them goes on. -/
lemma plain_split {D D' : List Text} (h : D.map Token.plain ++ S = D'.map Token.plain ++ S') :
    D = D' ∧ S = S' ∨
      (∃ x M, D = D' ++ x :: M ∧ S' = .plain x :: (M.map Token.plain ++ S)) ∨
      ∃ x M, D' = D ++ x :: M ∧ S = .plain x :: (M.map Token.plain ++ S') := by
  induction D generalizing D' with
  | nil =>
    cases D' with
    | nil => exact .inl ⟨rfl, h⟩
    | cons x M => exact .inr (.inr ⟨x, M, rfl, h⟩)
  | cons d D ih =>
    cases D' with
    | nil => exact .inr (.inl ⟨d, D, rfl, h.symm⟩)
    | cons d' D' =>
      simp only [List.map_cons, List.cons_append, List.cons.injEq, Token.plain.injEq] at h
      obtain ⟨rfl, hrest⟩ := h
      simpa only [List.cons_append, List.cons.injEq, true_and] using ih hrest

/-- Tokens that do not start with a file. -/
def NoFile (S : List Token) : Prop := ∀ f rest, S ≠ .file f :: rest

lemma noFile_nil : NoFile [] := by simp [NoFile]

lemma noFile_plain {x : Text} : NoFile (.plain x :: S) := by simp [NoFile]

lemma noFile_tokens {apps : List CanonicalAppManifest} : NoFile (tokens apps) := by
  cases apps <;> simp [NoFile, CanonicalAppManifest.tokens]

variable {F : List CanonicalFileManifest}

lemma file_split {F' : List CanonicalFileManifest} (hS : NoFile S) (hS' : NoFile S')
    (h : F.map Token.file ++ S = F'.map Token.file ++ S') : F = F' ∧ S = S' := by
  induction F generalizing F' with
  | nil =>
    cases F' with
    | nil => exact ⟨rfl, h⟩
    | cons f F' => exact absurd h (hS f _)
  | cons f F ih =>
    cases F' with
    | nil => exact absurd h.symm (hS' f _)
    | cons f' F' =>
      simp only [List.map_cons, List.cons_append, List.cons.injEq, Token.file.injEq] at h
      obtain ⟨rfl, hrest⟩ := h
      obtain ⟨rfl, rfl⟩ := ih hrest
      exact ⟨rfl, rfl⟩

/-- A name is not followed up by files. -/
lemma eq_of_files_append_eq_plain {x : Text} (hS : NoFile S)
    (h : F.map Token.file ++ S = .plain x :: S') : F = [] ∧ S = .plain x :: S' :=
  file_split hS noFile_plain (show _ = [].map Token.file ++ _ from h)

/-! ### From the digest to the tokens -/

lemma Text.fits (text : Text) : (utf8 text).length < 256 ^ 8 := by
  have hfits := text.property
  rw [length_utf8]
  omega

variable {rootApp : Text}

lemma length_lt_of_mem_manifestParts {apps : List CanonicalAppManifest} {part : Bytes}
    (h : part ∈ manifestParts rootApp apps) : part.length < 256 ^ 8 := by
  simp only [manifestParts, List.mem_cons, List.mem_flatMap, CanonicalAppManifest.parts,
    List.mem_append, List.mem_map, CanonicalFileManifest.parts, List.not_mem_nil, or_false] at h
  rcases h with rfl | rfl | ⟨app, -, rfl | rfl | ⟨d, -, rfl⟩ | ⟨f, -, rfl | rfl | rfl⟩⟩
  · decide +kernel
  · exact rootApp.fits
  · exact app.name.fits
  · exact app.version.fits
  · exact d.fits
  · exact f.path.fits
  · simp
  · exact f.blobDigest.fits

section Injective

variable {sha256 : Bytes → Bytes} (hsha : Function.Injective sha256)

variable {apps apps' : List CanonicalAppManifest}

include hsha

lemma manifestParts_eq_of_digest_eq {rootApp' : Text}
    (h : digestManifestRecords sha256 rootApp apps = digestManifestRecords sha256 rootApp' apps') :
    manifestParts rootApp apps = manifestParts rootApp' apps' := by
  have hhex := (String.append_right_inj _).mp h
  exact flatMap_sized_inj (fun _ => length_lt_of_mem_manifestParts)
    (fun _ => length_lt_of_mem_manifestParts) (hsha (hex_inj hhex))

/-- Read from the end, the hashed parts give back the root and the tokens. -/
theorem tokens_eq_of_digest_eq {rootApp' : Text} (hs : Ordered apps) (hs' : Ordered apps')
    (h : digestManifestRecords sha256 rootApp apps = digestManifestRecords sha256 rootApp' apps') :
    rootApp = rootApp' ∧ tokens apps = tokens apps' := by
  have hparts := manifestParts_eq_of_digest_eq hsha h
  simp only [manifestParts, List.cons.injEq, true_and, utf8_inj] at hparts
  refine ⟨Subtype.ext hparts.1, List.reverse_injective ?_⟩
  have hread : ∀ l : List CanonicalAppManifest,
      (l.flatMap CanonicalAppManifest.parts).reverse =
        (tokens l).reverse.flatMap (List.reverse ∘ Token.parts) := by
    intro l
    rw [← List.reverse_flatMap, tokens, List.flatMap_assoc, funext parts_eq_tokens]
  apply eq_of_readable (readable_tokens hs.component hs.rules)
    (readable_tokens hs'.component hs'.rules)
  rw [← hread, ← hread, hparts.2]

/-- The digest of one application separates records that keep the rules for an application. -/
theorem eq_of_digestAppRecords_eq {app app' : CanonicalAppManifest} (hrules : AppRules app)
    (hrules' : AppRules app')
    (h : digestAppRecords sha256 app.name app.version app.dependencies app.files =
      digestAppRecords sha256 app'.name app'.version app'.dependencies app'.files) :
    app = app' := by
  have hparts := manifestParts_eq_of_digest_eq hsha h
  simp only [manifestParts, List.flatMap_cons, List.flatMap_nil, List.append_nil, parts_eq_tokens,
    CanonicalAppManifest.tokens, Token.parts, List.singleton_append, List.cons.injEq, true_and,
    utf8_inj] at hparts
  obtain ⟨-, hname, hversion, hrest⟩ := hparts
  have hnil : Readable [] := trivial
  have htokens := eq_of_readable (hrules.readable hnil) (hrules'.readable hnil) (by
    rw [List.append_nil, List.append_nil, ← List.reverse_flatMap, ← List.reverse_flatMap, hrest])
  rw [List.append_nil, List.append_nil, List.reverse_inj] at htokens
  obtain ⟨hdependencies, hfiles⟩ : app.dependencies = app'.dependencies ∧ app.files = app'.files := by
    have hend : ∀ {F : List CanonicalFileManifest} {x : Text} {S : List Token},
        F.map Token.file ≠ .plain x :: S := by
      intro F x S heq
      have hempty := eq_of_files_append_eq_plain noFile_nil ((List.append_nil _).trans heq)
      cases hempty.2
    rcases plain_split htokens with h | ⟨x, M, -, h⟩ | ⟨x, M, -, h⟩
    · exact ⟨h.1, List.map_injective_iff.mpr (fun _ _ => Token.file.inj) h.2⟩
    · exact absurd h hend
    · exact absurd h hend
  cases app
  cases app'
  simp_all [Subtype.ext_iff]

end Injective

/-! ### Where two readings part -/

/-- The dependencies of one application go on where another application starts. -/
structure Parting (apps apps' : List CanonicalAppManifest) where
  before : List CanonicalAppManifest
  name : Text
  version : Text
  dependencies : List Text
  next : Text
  more : List Text
  files : List CanonicalFileManifest
  after : List CanonicalAppManifest
  nextVersion : Text
  nextDependencies : List Text
  nextFiles : List CanonicalFileManifest
  nextAfter : List CanonicalAppManifest
  left : apps = before ++ ⟨name, version, dependencies ++ next :: more, files⟩ :: after
  right : apps' = before ++ ⟨name, version, dependencies, []⟩ ::
    ⟨next, nextVersion, nextDependencies, nextFiles⟩ :: nextAfter
  rest : more.map Token.plain ++ files.map Token.file ++ tokens after =
    .plain nextVersion :: (nextDependencies.map Token.plain ++ nextFiles.map Token.file ++
      tokens nextAfter)

/-- The same application before the two readings. -/
def Parting.cons {apps apps' : List CanonicalAppManifest} (p : Parting apps apps')
    (app : CanonicalAppManifest) : Parting (app :: apps) (app :: apps') where
  __ := p
  before := app :: p.before
  left := congrArg (List.cons app) p.left
  right := congrArg (List.cons app) p.right

/-- One application has more dependencies than the other. -/
lemma exists_parting {app app' : CanonicalAppManifest} {apps apps' : List CanonicalAppManifest}
    {x : Text} {M : List Text} (hname : app.name = app'.name) (hversion : app.version = app'.version)
    (hmore : app.dependencies = app'.dependencies ++ x :: M)
    (hrest : app'.files.map Token.file ++ tokens apps' =
      .plain x :: (M.map Token.plain ++ (app.files.map Token.file ++ tokens apps))) :
    Nonempty (Parting (app :: apps) (app' :: apps')) := by
  obtain ⟨hfiles, htokens⟩ := eq_of_files_append_eq_plain noFile_tokens hrest
  cases apps' with
  | nil => cases htokens
  | cons next apps' =>
    simp only [tokens_cons, CanonicalAppManifest.tokens, List.cons_append, List.cons.injEq,
      Token.plain.injEq] at htokens
    obtain ⟨rfl, hafter⟩ := htokens
    cases app
    cases app'
    dsimp only at hname hversion hmore hfiles
    subst hname hversion hmore hfiles
    exact ⟨⟨[], _, _, _, next.name, M, _, apps, next.version, next.dependencies, next.files, apps',
      rfl, rfl, by simpa using hafter.symm⟩⟩

/-- Applications with the same tokens are the same, or the two readings part. -/
theorem eq_or_parting {apps apps' : List CanonicalAppManifest} (h : tokens apps = tokens apps') :
    apps = apps' ∨ Nonempty (Parting apps apps') ∨ Nonempty (Parting apps' apps) := by
  induction apps generalizing apps' with
  | nil =>
    cases apps' with
    | nil => exact .inl rfl
    | cons app' apps' => cases h
  | cons app apps ih =>
    cases apps' with
    | nil => cases h
    | cons app' apps' =>
      simp only [tokens_cons, CanonicalAppManifest.tokens, List.cons_append, List.cons.injEq,
        Token.plain.injEq, List.append_assoc] at h
      obtain ⟨hname, hversion, hrest⟩ := h
      rcases plain_split hrest with ⟨hdependencies, hrest⟩ | ⟨x, M, hmore, hrest⟩ | ⟨x, M, hmore, hrest⟩
      · obtain ⟨hfiles, htokens⟩ := file_split noFile_tokens noFile_tokens hrest
        obtain rfl : app = app' := by
          cases app
          cases app'
          simp_all
        rcases ih htokens with rfl | ⟨⟨p⟩⟩ | ⟨⟨p⟩⟩
        · exact .inl rfl
        · exact .inr (.inl ⟨p.cons app⟩)
        · exact .inr (.inr ⟨p.cons app⟩)
      · exact .inr (.inl (exists_parting hname hversion hmore hrest))
      · exact .inr (.inr (exists_parting hname.symm hversion.symm hmore hrest))

/-! ### Readings that cannot part -/

/-- What a name at the start of a rest is: a dependency, or the name of the next application. -/
lemma head_of_rest {E : List Text} {G : List CanonicalFileManifest}
    {apps : List CanonicalAppManifest} {u : Text}
    (h : E.map Token.plain ++ G.map Token.file ++ tokens apps = .plain u :: S) :
    (∃ E', E = u :: E' ∧ S = E'.map Token.plain ++ G.map Token.file ++ tokens apps) ∨
      E = [] ∧ G = [] ∧ ∃ a as, apps = a :: as ∧ a.name = u ∧
        S = .plain a.version :: (a.dependencies.map Token.plain ++ a.files.map Token.file ++
          tokens as) := by
  cases E with
  | cons e E =>
    simp only [List.map_cons, List.cons_append, List.cons.injEq, Token.plain.injEq] at h
    obtain ⟨rfl, rfl⟩ := h
    exact .inl ⟨E, rfl, rfl⟩
  | nil =>
    obtain ⟨hfiles, htokens⟩ := eq_of_files_append_eq_plain noFile_tokens h
    cases apps with
    | nil => cases htokens
    | cons a as =>
      simp only [tokens_cons, CanonicalAppManifest.tokens, List.cons_append, List.cons.injEq,
        Token.plain.injEq] at htokens
      exact .inr ⟨rfl, hfiles, a, as, rfl, htokens.1, by simp [← htokens.2]⟩

lemma mem_tokens {apps : List CanonicalAppManifest} {t : Text} :
    .plain t ∈ tokens apps ↔ ∃ a ∈ apps, t = a.name ∨ t = a.version ∨ t ∈ a.dependencies := by
  simp [tokens, CanonicalAppManifest.tokens]

/-- At most one of the version strings can be the name of an application. -/
def OneName (versions : Set String) : Prop :=
  ∀ v ∈ versions, ∀ w ∈ versions, IsComponent v → IsComponent w → v = w

section Parting

variable {apps apps' : List CanonicalAppManifest} (p : Parting apps apps') (hs : Ordered apps)
  (hs' : Ordered apps')

namespace Parting

def app : CanonicalAppManifest :=
  ⟨p.name, p.version, p.dependencies ++ p.next :: p.more, p.files⟩

def nextApp : CanonicalAppManifest :=
  ⟨p.next, p.nextVersion, p.nextDependencies, p.nextFiles⟩

variable {a : CanonicalAppManifest}

lemma mem_left_iff : a ∈ apps ↔ a ∈ p.before ∨ a = p.app ∨ a ∈ p.after := by
  rw [show (a ∈ apps) = _ from congrArg (a ∈ ·) p.left]
  simp [app]

lemma mem_right_iff :
    a ∈ apps' ↔ a ∈ p.before ∨ a = ⟨p.name, p.version, p.dependencies, []⟩ ∨ a = p.nextApp ∨
      a ∈ p.nextAfter := by
  rw [show (a ∈ apps') = _ from congrArg (a ∈ ·) p.right]
  simp [nextApp]

lemma app_mem : p.app ∈ apps := p.mem_left_iff.mpr (.inr (.inl rfl))

lemma nextApp_mem : p.nextApp ∈ apps' := p.mem_right_iff.mpr (.inr (.inr (.inl rfl)))

section Left

include hs

lemma before_lt {b : CanonicalAppManifest} (hb : b ∈ p.before) (ha : a ∈ p.after) :
    b.name.val < a.name.val := by
  have hsorted := hs.sorted
  rw [p.left, List.map_append, List.pairwise_append] at hsorted
  exact hsorted.2.2 _ (List.mem_map_of_mem hb) _
    (List.mem_map_of_mem (List.mem_cons_of_mem _ ha))

lemma name_lt (ha : a ∈ p.after) : p.name.val < a.name.val := by
  have hsorted := hs.sorted
  rw [p.left, List.map_append, List.pairwise_append, List.map_cons, List.pairwise_cons] at hsorted
  exact hsorted.2.1.1 _ (List.mem_map_of_mem ha)

lemma more_lt {d : Text} (hd : d ∈ p.more) : p.next.val < d.val := by
  have hsorted := (hs.rules _ p.app_mem).sorted
  rw [app, List.map_append, List.pairwise_append, List.map_cons, List.pairwise_cons] at hsorted
  exact hsorted.2.1.1 _ (List.mem_map_of_mem hd)

lemma more_sorted : (p.more.map Subtype.val).Pairwise (· < ·) := by
  have hsorted := (hs.rules _ p.app_mem).sorted
  rw [app, List.map_append, List.pairwise_append, List.map_cons, List.pairwise_cons] at hsorted
  exact hsorted.2.1.2

lemma head_le {c : CanonicalAppManifest} {cs : List CanonicalAppManifest}
    (hafter : p.after = c :: cs) (ha : a ∈ p.after) : c.name.val ≤ a.name.val := by
  have hsorted := hs.sorted
  rw [p.left, List.map_append, List.pairwise_append, List.map_cons, List.pairwise_cons, hafter,
    List.map_cons, List.pairwise_cons] at hsorted
  rw [hafter] at ha
  rcases List.mem_cons.mp ha with rfl | htail
  · exact le_rfl
  · exact (hsorted.2.1.2.1 _ (List.mem_map_of_mem htail)).le

end Left

section Right

include hs'

lemma next_lt (ha : a ∈ p.nextAfter) : p.next.val < a.name.val := by
  have hsorted := hs'.sorted
  rw [p.right, List.map_append, List.pairwise_append, List.map_cons, List.pairwise_cons,
    List.map_cons, List.pairwise_cons] at hsorted
  exact hsorted.2.1.2.1 _ (List.mem_map_of_mem ha)

lemma name_lt_next : p.name.val < p.next.val := by
  have hsorted := hs'.sorted
  rw [p.right, List.map_append, List.pairwise_append, List.map_cons, List.pairwise_cons,
    List.map_cons] at hsorted
  exact hsorted.2.1.1 _ (by simp)

lemma before_lt_next {b : CanonicalAppManifest} (hb : b ∈ p.before) :
    b.name.val < p.next.val := by
  have hsorted := hs'.sorted
  rw [p.right, List.map_append, List.pairwise_append] at hsorted
  exact hsorted.2.2 _ (List.mem_map_of_mem hb) _ (by simp)

end Right

include hs hs'

/-- The application where the second reading goes on comes later in the first. -/
lemma next_mem_after : ∃ a ∈ p.after, a.name = p.next := by
  obtain ⟨a, ha, hname⟩ := List.mem_map.mp (hs.present _ p.app_mem p.next (by simp [app]))
  refine ⟨a, ?_, Subtype.ext hname⟩
  rcases p.mem_left_iff.mp ha with hbefore | rfl | hafter
  · exact absurd hname (p.before_lt_next hs' hbefore).ne
  · exact absurd hname (p.name_lt_next hs').ne
  · exact hafter

/-- An application that comes later in the first reading and is in the second does not come before
the one where the second goes on. -/
lemma next_le {a' : CanonicalAppManifest} (ha : a ∈ p.after) (ha' : a' ∈ apps')
    (hname : a.name.val = a'.name.val) : p.next.val ≤ a.name.val := by
  rcases p.mem_right_iff.mp ha' with hbefore | rfl | rfl | hafter
  · exact absurd hname (p.before_lt hs hbefore ha).ne'
  · exact absurd hname (p.name_lt hs ha).ne'
  · exact hname.ge
  · rw [hname]
    exact (p.next_lt hs' hafter).le

section OneName

variable {versions : Set String} (hone : OneName versions)
  (hv : ∀ a ∈ apps, a.version.val ∈ versions) (hv' : ∀ a ∈ apps', a.version.val ∈ versions)

include hone hv hv'

/-- The second reading takes the name of an application for a version. -/
lemma false_of_app {c : CanonicalAppManifest} {cs : List CanonicalAppManifest}
    (hafter : p.after = c :: cs) (hname : c.name = p.nextVersion)
    (hrest : p.nextDependencies.map Token.plain ++ p.nextFiles.map Token.file ++
        tokens p.nextAfter =
      .plain c.version :: (c.dependencies.map Token.plain ++ c.files.map Token.file ++
        tokens cs)) : False := by
  have hcafter : c ∈ p.after := by simp [hafter]
  have hc : c ∈ apps := p.mem_left_iff.mpr (.inr (.inr hcafter))
  obtain ⟨a, ha, haname⟩ := p.next_mem_after hs hs'
  have hle : p.nextVersion.val ≤ p.next.val := hname ▸ haname ▸ p.head_le hs hafter ha
  have hw : IsComponent p.nextVersion := hname ▸ hs.component c hc
  -- the version of the application is read as a name, so that it is the same text
  have hversion : IsComponent c.version → c.version.val = p.nextVersion.val := fun h =>
    hone _ (hv c hc) _ (hv' _ p.nextApp_mem) h hw
  rcases head_of_rest hrest with ⟨E, hE, -⟩ | ⟨-, -, o, os, hos, ho, -⟩
  · have hdep : c.version ∈ p.nextApp.dependencies := by simp [nextApp, hE]
    have heq := hversion ((hs'.rules _ p.nextApp_mem).component _ hdep)
    obtain ⟨a', ha', ha'name⟩ := List.mem_map.mp (hs'.present _ p.nextApp_mem _ hdep)
    have hge := p.next_le hs hs' hcafter ha' (by rw [hname, ← heq, ha'name])
    have hnext : c.version = p.next := by
      apply Subtype.ext
      rw [heq]
      exact le_antisymm hle (hname ▸ hge)
    exact hs'.irreflexive _ p.nextApp_mem (show p.next ∈ _ from hnext ▸ hdep)
  · have ho' : o ∈ p.nextAfter := by simp [hos]
    have hoapps : o ∈ apps' := p.mem_right_iff.mpr (.inr (.inr (.inr ho')))
    have heq := hversion (ho ▸ hs'.component o hoapps)
    have hlt := p.next_lt hs' ho'
    rw [ho, heq] at hlt
    exact absurd hle hlt.not_ge

omit hv in
/-- The second reading takes a dependency for a version. -/
lemma false_of_dependency (htokens : tokens apps = tokens apps') {M : List Text}
    (hmore : p.more = p.nextVersion :: M)
    (hrest : p.nextDependencies.map Token.plain ++ p.nextFiles.map Token.file ++
        tokens p.nextAfter =
      M.map Token.plain ++ p.files.map Token.file ++ tokens p.after) : False := by
  have hlt : p.next.val < p.nextVersion.val := p.more_lt hs (by simp [hmore])
  have hw : IsComponent p.nextVersion :=
    (hs.rules _ p.app_mem).component _ (by simp [app, hmore])
  have hversion : ∀ a ∈ apps', IsComponent a.version → a.version.val = p.nextVersion.val :=
    fun a ha h => hone _ (hv' a ha) _ (hv' _ p.nextApp_mem) h hw
  -- the next application of the first reading is the one where the second goes on
  obtain ⟨a, ha, haname⟩ := p.next_mem_after hs hs'
  obtain ⟨c, cs, hafter⟩ := List.exists_cons_of_ne_nil (List.ne_nil_of_mem ha)
  have hcafter : c ∈ p.after := by simp [hafter]
  have hc : c ∈ apps := p.mem_left_iff.mpr (.inr (.inr hcafter))
  have hle : c.name.val ≤ p.next.val := haname ▸ p.head_le hs hafter ha
  have hcname : c.name = p.next := by
    have hmem : Token.plain c.name ∈ tokens apps' := by
      rw [← htokens]
      exact mem_tokens.mpr ⟨c, hc, .inl rfl⟩
    apply Subtype.ext
    obtain ⟨b, hb, hrole⟩ := mem_tokens.mp hmem
    rcases hrole with hname | hver | hdep
    · exact le_antisymm hle (p.next_le hs hs' hcafter hb (congrArg Subtype.val hname))
    · have heq := hversion b hb (hver ▸ hs.component c hc)
      rw [← hver] at heq
      exact absurd (heq ▸ hle) hlt.not_ge
    · obtain ⟨b', hb', hname⟩ := List.mem_map.mp (hs'.present b hb _ hdep)
      exact le_antisymm hle (p.next_le hs hs' hcafter hb' hname.symm)
  rw [List.append_assoc, List.append_assoc] at hrest
  have hctokens : tokens p.after = .plain p.next :: (.plain c.version ::
      (c.dependencies.map Token.plain ++ c.files.map Token.file) ++ tokens cs) := by
    rw [hafter, tokens_cons, CanonicalAppManifest.tokens, hcname]
    rfl
  rcases plain_split hrest with ⟨-, hrest⟩ | ⟨x, E, hE, hrest⟩ | ⟨x, E, hM, hrest⟩
  · obtain ⟨-, hrest⟩ := file_split noFile_tokens noFile_tokens hrest
    rw [hctokens] at hrest
    rcases head_of_rest (E := []) (G := []) hrest with ⟨_, hnil, -⟩ | ⟨-, -, o, os, hos, ho, -⟩
    · cases hnil
    · exact absurd (congrArg Subtype.val ho) (p.next_lt hs' (by simp [hos])).ne'
  · rw [hctokens] at hrest
    obtain ⟨-, hrest⟩ := eq_of_files_append_eq_plain noFile_plain hrest
    obtain ⟨hx, -⟩ := List.cons.inj hrest
    have hself : p.next ∈ p.nextApp.dependencies := by simp [nextApp, hE, Token.plain.inj hx]
    exact hs'.irreflexive _ p.nextApp_mem hself
  · rcases head_of_rest (E := []) hrest with ⟨_, hnil, -⟩ | ⟨-, -, q, qs, hqs, hq, hrest⟩
    · cases hnil
    have hqapps : q ∈ apps' := p.mem_right_iff.mpr (.inr (.inr (.inr (by simp [hqs]))))
    have hsorted := p.more_sorted hs
    rw [hmore, hM, List.map_cons, List.pairwise_cons, List.map_append, List.pairwise_append,
      List.map_cons, List.pairwise_cons] at hsorted
    rw [← List.append_assoc] at hrest
    rcases head_of_rest hrest with ⟨E', hE', -⟩ | ⟨-, -, b, bs, hbs, hb, -⟩
    · have hdep : q.version ∈ p.app.dependencies := by simp [app, hmore, hM, hE']
      have heq := hversion q hqapps ((hs.rules _ p.app_mem).component _ hdep)
      have hx : p.nextVersion.val < x.val := hsorted.1 _ (by simp)
      have hxq : x.val < q.version.val := hsorted.2.2.1.1 _ (by simp [hE'])
      rw [heq] at hxq
      exact lt_asymm hx hxq
    · obtain rfl : c = b := by
        rw [hafter] at hbs
        exact (List.cons.inj hbs).1
      have heq := hversion q hqapps (hb ▸ hs.component c hc)
      rw [← hb, hcname] at heq
      exact absurd heq hlt.ne

include p in
/-- Where at most one version string can be a name, the readings do not part. -/
theorem elim (htokens : tokens apps = tokens apps') : False := by
  rcases head_of_rest p.rest with ⟨M, hmore, hrest⟩ | ⟨-, -, c, cs, hafter, hname, hrest⟩
  · exact p.false_of_dependency hs hs' hone hv' htokens hmore hrest
  · exact p.false_of_app hs hs' hone hv hv' hafter hname hrest

end OneName

end Parting

end Parting

/-! ### Manifests that share a digest -/

lemma lookup_dependencyMap {apps : List CanonicalAppManifest} (hs : Ordered apps)
    (app : CanonicalAppManifest) (h : app ∈ apps) :
    (dependencyMap apps).lookup app.name.val = some (app.dependencies.map Subtype.val) := by
  have hnodup : ((dependencyMap apps).map Prod.fst).Nodup := by
    rw [dependencyMap, List.map_map]
    exact hs.sorted.imp fun hlt => hlt.ne
  exact lookup_of_mem hnodup (List.mem_map_of_mem h)

/-- The digest identifies the manifests whose versions are among the given strings. -/
def Identifies (sha256 : Bytes → Bytes) (versions : Set String) : Prop :=
  ∀ m m', validateManifest sha256 m = .ok () → validateManifest sha256 m' = .ok () →
    (∀ a ∈ m.apps, a.version.val ∈ versions) → (∀ a ∈ m'.apps, a.version.val ∈ versions) →
      m.bundleDigest = m'.bundleDigest → m.rootApp = m'.rootApp ∧ m.apps = m'.apps

lemma identifies_of_oneName {sha256 : Bytes → Bytes} (hsha : Function.Injective sha256)
    {versions : Set String} (hone : OneName versions) : Identifies sha256 versions := by
  intro m m' hm hm' hv hv' hdigest
  obtain ⟨hs, hd⟩ := validateManifest_ok hm
  obtain ⟨hs', hd'⟩ := validateManifest_ok hm'
  obtain ⟨hroot, htokens⟩ := tokens_eq_of_digest_eq hsha hs hs' (hd ▸ hd' ▸ hdigest)
  refine ⟨hroot, ?_⟩
  rcases eq_or_parting htokens with heq | ⟨⟨p⟩⟩ | ⟨⟨p⟩⟩
  · exact heq
  · exact (p.elim hs hs' hone hv hv' htokens).elim
  · exact (p.elim hs' hs hone hv' hv htokens.symm).elim

section Collision

variable {sha256 : Bytes → Bytes}

/-- Applications without files that are accepted below a root. -/
structure Acceptable (rootApp : Text) (apps : List CanonicalAppManifest) : Prop where
  ordered : Ordered apps
  length : apps.length ≤ maxBundleApps
  files : ∀ a ∈ apps, a.files = []
  root : apps.countP (·.name = rootApp) = 1
  graph : validateDependencyGraph rootApp (dependencyMap apps) = .ok ()

variable {apps : List CanonicalAppManifest}

lemma Acceptable.accepted (h : Acceptable rootApp apps) :
    validateManifest sha256 (manifestOf sha256 rootApp apps) = .ok () :=
  validateManifest_manifestOf h.ordered h.length h.files h.root h.graph

variable {apps' : List CanonicalAppManifest}

lemma digest_eq_of_tokens_eq (h : tokens apps = tokens apps') :
    digestManifestRecords sha256 rootApp apps = digestManifestRecords sha256 rootApp apps' := by
  have hparts : ∀ l : List CanonicalAppManifest,
      l.flatMap CanonicalAppManifest.parts = (tokens l).flatMap Token.parts := by
    intro l
    rw [tokens, List.flatMap_assoc, funext parts_eq_tokens]
  rw [digestManifestRecords, digestManifestRecords, manifestParts, manifestParts, hparts, hparts, h]

variable {versions : Set String}

/-- Different applications with the same tokens are not told apart. -/
lemma not_identifies (h : Acceptable rootApp apps) (h' : Acceptable rootApp apps')
    (hne : apps ≠ apps') (htokens : tokens apps = tokens apps')
    (hv : ∀ a ∈ apps, a.version.val ∈ versions) (hv' : ∀ a ∈ apps', a.version.val ∈ versions) :
    ¬ Identifies sha256 versions := by
  intro hidentifies
  exact hne (hidentifies (manifestOf sha256 rootApp apps) (manifestOf sha256 rootApp apps')
    h.accepted h'.accepted hv hv' (digest_eq_of_tokens_eq htokens)).2

section Graphs

variable {dependencies : Dependencies} {x y u s : String}

lemma graph_firstReading (hux : u ≠ x) (huy : u ≠ y) (hxy : x ≠ y)
    (hlength : dependencies.length = 3) (hu : dependencies.lookup u = some [x, y])
    (hx : dependencies.lookup x = some [y]) (hy : dependencies.lookup y = some []) :
    validateDependencyGraph u dependencies = .ok () := by
  simp [validateDependencyGraph, visit_fresh, visit_visited, visitAll, hu, hx, hy, hux, huy, hxy,
    hux.symm, huy.symm, hxy.symm, bind, Except.bind, Except.map, Checks.require, hlength]

lemma graph_secondReading (hux : u ≠ x) (huy : u ≠ y) (hxy : x ≠ y)
    (hlength : dependencies.length = 3) (hu : dependencies.lookup u = some [x, y])
    (hx : dependencies.lookup x = some []) (hy : dependencies.lookup y = some [x]) :
    validateDependencyGraph u dependencies = .ok () := by
  simp [validateDependencyGraph, visit_fresh, visit_visited, visitAll, hu, hx, hy, hux, huy,
    hux.symm, huy.symm, hxy.symm, bind, Except.bind, Except.map, Checks.require, hlength]

lemma graph_firstBetween (hux : u ≠ x) (hus : u ≠ s) (huy : u ≠ y) (hxs : x ≠ s) (hxy : x ≠ y)
    (hsy : s ≠ y) (hlength : dependencies.length = 4) (hu : dependencies.lookup u = some [x, s, y])
    (hx : dependencies.lookup x = some []) (hs : dependencies.lookup s = some [y])
    (hy : dependencies.lookup y = some []) : validateDependencyGraph u dependencies = .ok () := by
  simp [validateDependencyGraph, visit_fresh, visit_visited, visitAll, hu, hx, hs, hy, hux, hus,
    huy, hsy, hux.symm, hus.symm, huy.symm, hxs.symm, hxy.symm, hsy.symm, bind, Except.bind,
    Except.map, Checks.require, hlength]

lemma graph_secondBetween (hux : u ≠ x) (hus : u ≠ s) (huy : u ≠ y) (hxs : x ≠ s) (hxy : x ≠ y)
    (hsy : s ≠ y) (hlength : dependencies.length = 4) (hu : dependencies.lookup u = some [x, s, y])
    (hx : dependencies.lookup x = some []) (hs : dependencies.lookup s = some [])
    (hy : dependencies.lookup y = some [x]) : validateDependencyGraph u dependencies = .ok () := by
  simp [validateDependencyGraph, visit_fresh, visit_visited, visitAll, hu, hx, hs, hy, hux, hus,
    huy, hxs, hux.symm, hus.symm, huy.symm, hxs.symm, hxy.symm, hsy.symm, bind, Except.bind,
    Except.map, Checks.require, hlength]

end Graphs

/-- An application without files. -/
abbrev bare (name version : Text) (dependencies : List Text) : CanonicalAppManifest :=
  ⟨name, version, dependencies, []⟩

lemma bare_rules {name version : Text} {dependencies : List Text} :
    AppRules (bare name version dependencies) ↔ (∀ d ∈ dependencies, IsComponent d) ∧
      (dependencies.map Subtype.val).Pairwise (· < ·) :=
  ⟨fun h => ⟨h.component, h.sorted⟩, fun h => ⟨h.1, h.2, by simp⟩⟩

lemma Text.ne_of_lt {x y : Text} (h : x.val < y.val) : x ≠ y := fun heq => h.ne (heq ▸ rfl)

section Orders

variable {a b r s v : Text} {D E : List Text} (ha : IsComponent a) (hb : IsComponent b)
  (hr : IsComponent r) (hab : a.val < b.val) (hD : D = [] ∨ D = [b]) (hE : E = [] ∨ E = [a])

include ha hb hr hab hD hE

lemma ordered_rootFirst (hra : r.val < a.val) :
    Ordered [bare r a [a, b], bare a a D, bare b v E] := by
  have hrb := hra.trans hab
  have hne := Text.ne_of_lt hab
  rcases hD with rfl | rfl <;> rcases hE with rfl | rfl <;> constructor <;>
    simp [-Subtype.forall, -String.lt_iff_ltb, bare_rules, ha, hb, hr, hab, hra, hrb, hne,
      hne.symm, Text.ne_of_lt hra, Text.ne_of_lt hrb]

lemma ordered_rootLast (hbr : b.val < r.val) :
    Ordered [bare a a D, bare b v E, bare r a [a, b]] := by
  have har := hab.trans hbr
  have hne := Text.ne_of_lt hab
  rcases hD with rfl | rfl <;> rcases hE with rfl | rfl <;> constructor <;>
    simp [-Subtype.forall, -String.lt_iff_ltb, bare_rules, ha, hb, hr, hab, hbr, har, hne,
      hne.symm, (Text.ne_of_lt hbr).symm, (Text.ne_of_lt har).symm]

lemma ordered_rootBetween (hs : IsComponent s) (har : a.val < r.val) (hrs : r.val < s.val)
    (hsb : s.val < b.val) : Ordered [bare a a [], bare r a [a, s, b], bare s a D, bare b v E] := by
  have has := har.trans hrs
  have hrb := hrs.trans hsb
  rcases hD with rfl | rfl <;> rcases hE with rfl | rfl <;> constructor <;>
    simp [-Subtype.forall, -String.lt_iff_ltb, bare_rules, ha, hb, hr, hs, hab, har, hrs, hsb, has,
      hrb, (Text.ne_of_lt hab).symm, (Text.ne_of_lt har).symm, Text.ne_of_lt hrs,
      Text.ne_of_lt hrb, Text.ne_of_lt hsb]

end Orders

section Pairs

variable {a b r s : Text} (ha : IsComponent a) (hb : IsComponent b) (hr : IsComponent r)
  (hab : a.val < b.val)

include ha hb hr hab

lemma acceptable_rootFirst (hra : r.val < a.val) :
    Acceptable r [bare r a [a, b], bare a a [b], bare b a []] ∧
      Acceptable r [bare r a [a, b], bare a a [], bare b b [a]] := by
  have hrb := hra.trans hab
  have hroot : ∀ D E v, List.countP (fun x : CanonicalAppManifest => x.name = r)
      [bare r a [a, b], bare a a D, bare b v E] = 1 := by
    simp [(Text.ne_of_lt hra).symm, (Text.ne_of_lt hrb).symm]
  have h₁ := ordered_rootFirst (v := a) ha hb hr hab (.inr rfl) (.inl rfl) hra
  have h₂ := ordered_rootFirst (v := b) ha hb hr hab (.inl rfl) (.inr rfl) hra
  refine ⟨⟨h₁, by simp [maxBundleApps], by simp, hroot _ _ _, ?_⟩,
    ⟨h₂, by simp [maxBundleApps], by simp, hroot _ _ _, ?_⟩⟩
  · exact graph_firstReading hra.ne hrb.ne hab.ne rfl
      (lookup_dependencyMap h₁ (bare r a [a, b]) (by simp))
      (lookup_dependencyMap h₁ (bare a a [b]) (by simp))
      (lookup_dependencyMap h₁ (bare b a []) (by simp))
  · exact graph_secondReading hra.ne hrb.ne hab.ne rfl
      (lookup_dependencyMap h₂ (bare r a [a, b]) (by simp))
      (lookup_dependencyMap h₂ (bare a a []) (by simp))
      (lookup_dependencyMap h₂ (bare b b [a]) (by simp))

lemma acceptable_rootLast (hbr : b.val < r.val) :
    Acceptable r [bare a a [b], bare b a [], bare r a [a, b]] ∧
      Acceptable r [bare a a [], bare b b [a], bare r a [a, b]] := by
  have har := hab.trans hbr
  have hroot : ∀ D E v, List.countP (fun x : CanonicalAppManifest => x.name = r)
      [bare a a D, bare b v E, bare r a [a, b]] = 1 := by
    simp [Text.ne_of_lt hbr, Text.ne_of_lt har]
  have h₁ := ordered_rootLast (v := a) ha hb hr hab (.inr rfl) (.inl rfl) hbr
  have h₂ := ordered_rootLast (v := b) ha hb hr hab (.inl rfl) (.inr rfl) hbr
  refine ⟨⟨h₁, by simp [maxBundleApps], by simp, hroot _ _ _, ?_⟩,
    ⟨h₂, by simp [maxBundleApps], by simp, hroot _ _ _, ?_⟩⟩
  · exact graph_firstReading har.ne' hbr.ne' hab.ne rfl
      (lookup_dependencyMap h₁ (bare r a [a, b]) (by simp))
      (lookup_dependencyMap h₁ (bare a a [b]) (by simp))
      (lookup_dependencyMap h₁ (bare b a []) (by simp))
  · exact graph_secondReading har.ne' hbr.ne' hab.ne rfl
      (lookup_dependencyMap h₂ (bare r a [a, b]) (by simp))
      (lookup_dependencyMap h₂ (bare a a []) (by simp))
      (lookup_dependencyMap h₂ (bare b b [a]) (by simp))

lemma acceptable_rootBetween (hs : IsComponent s) (har : a.val < r.val) (hrs : r.val < s.val)
    (hsb : s.val < b.val) :
    Acceptable r [bare a a [], bare r a [a, s, b], bare s a [b], bare b a []] ∧
      Acceptable r [bare a a [], bare r a [a, s, b], bare s a [], bare b b [a]] := by
  have has := har.trans hrs
  have hrb := hrs.trans hsb
  have hroot : ∀ D E v, List.countP (fun x : CanonicalAppManifest => x.name = r)
      [bare a a [], bare r a [a, s, b], bare s a D, bare b v E] = 1 := by
    simp [Text.ne_of_lt har, (Text.ne_of_lt hrs).symm, (Text.ne_of_lt hrb).symm]
  have h₁ := ordered_rootBetween (v := a) ha hb hr hab (.inr rfl) (.inl rfl) hs har hrs hsb
  have h₂ := ordered_rootBetween (v := b) ha hb hr hab (.inl rfl) (.inr rfl) hs har hrs hsb
  refine ⟨⟨h₁, by simp [maxBundleApps], by simp, hroot _ _ _, ?_⟩,
    ⟨h₂, by simp [maxBundleApps], by simp, hroot _ _ _, ?_⟩⟩
  · exact graph_firstBetween har.ne' hrs.ne hrb.ne has.ne hab.ne hsb.ne rfl
      (lookup_dependencyMap h₁ (bare r a [a, s, b]) (by simp))
      (lookup_dependencyMap h₁ (bare a a []) (by simp))
      (lookup_dependencyMap h₁ (bare s a [b]) (by simp))
      (lookup_dependencyMap h₁ (bare b a []) (by simp))
  · exact graph_secondBetween har.ne' hrs.ne hrb.ne has.ne hab.ne hsb.ne rfl
      (lookup_dependencyMap h₂ (bare r a [a, s, b]) (by simp))
      (lookup_dependencyMap h₂ (bare a a []) (by simp))
      (lookup_dependencyMap h₂ (bare s a []) (by simp))
      (lookup_dependencyMap h₂ (bare b b [a]) (by simp))

/-- Two names that are version strings too, with two more names for the rest of the bundle. -/
lemma not_identifies_of_others (hav : a.val ∈ versions) (hbv : b.val ∈ versions)
    (hs : IsComponent s) (hra : r.val ≠ a.val) (hsb : s.val ≠ b.val) (hrs : r.val < s.val) :
    ¬ Identifies sha256 versions := by
  rcases lt_or_gt_of_ne hra with hlt | har
  · obtain ⟨h₁, h₂⟩ := acceptable_rootFirst ha hb hr hab hlt
    exact not_identifies h₁ h₂ (by simp) rfl (by simp [hav]) (by simp [hav, hbv])
  rcases lt_or_gt_of_ne hsb with hlt | hgt
  · obtain ⟨h₁, h₂⟩ := acceptable_rootBetween ha hb hr hab hs har hrs hlt
    exact not_identifies h₁ h₂ (by simp) rfl (by simp [hav]) (by simp [hav, hbv])
  · obtain ⟨h₁, h₂⟩ := acceptable_rootLast ha hb hs hab hgt
    exact not_identifies h₁ h₂ (by simp) rfl (by simp [hav]) (by simp [hav, hbv])

end Pairs

lemma exists_spare (x y : String) :
    ∃ r s, IsComponent r ∧ IsComponent s ∧ r ≠ x ∧ s ≠ y ∧ r < s := by
  have hr : ∃ r ∈ ["a", "b"], r ≠ x := by
    by_cases hx : x = "a"
    · exact ⟨"b", by simp, by simp [hx]⟩
    · exact ⟨"a", by simp, Ne.symm hx⟩
  have hs : ∃ s ∈ ["c", "d"], s ≠ y := by
    by_cases hy : y = "c"
    · exact ⟨"d", by simp, by simp [hy]⟩
    · exact ⟨"c", by simp, Ne.symm hy⟩
  obtain ⟨r, hrmem, hrne⟩ := hr
  obtain ⟨s, hsmem, hsne⟩ := hs
  have hall : ∀ r ∈ ["a", "b"], ∀ s ∈ ["c", "d"], IsComponent r ∧ IsComponent s ∧ r < s := by
    decide +kernel
  obtain ⟨hrc, hsc, hlt⟩ := hall r hrmem s hsmem
  exact ⟨r, s, hrc, hsc, hrne, hsne, hlt⟩

lemma IsComponent.fits (h : IsComponent value) : value.utf8ByteSize < 2 ^ 63 := by
  have hle := h.2.1
  omega

/-- A name of an application as a text. -/
def nameText (value : String) (h : IsComponent value) : Text := ⟨value, h.fits⟩

lemma not_identifies_of_lt {v w : String} (hv : v ∈ versions) (hw : w ∈ versions)
    (hvc : IsComponent v) (hwc : IsComponent w) (hlt : v < w) : ¬ Identifies sha256 versions := by
  obtain ⟨r, s, hrc, hsc, hrv, hsw, hrs⟩ := exists_spare v w
  exact not_identifies_of_others (a := nameText v hvc) (b := nameText w hwc)
    (r := nameText r hrc) (s := nameText s hsc) hvc hwc hrc hlt hv hw hsc hrv hsw hrs

end Collision

/-- The digest identifies the manifests whose version strings are taken from a set exactly when at
most one string of the set can be the name of an application. The digest of one application
separates its records whatever the versions are. -/
theorem digest_identifies_iff {sha256 : Bytes → Bytes} (hsha : Function.Injective sha256) :
    (∀ versions : Set String, Identifies sha256 versions ↔ OneName versions) ∧
      ∀ app app' : CanonicalAppManifest, AppRules app → AppRules app' →
        digestAppRecords sha256 app.name app.version app.dependencies app.files =
          digestAppRecords sha256 app'.name app'.version app'.dependencies app'.files →
        app = app' := by
  refine ⟨fun versions => ⟨fun h v hv w hw hvc hwc => ?_, identifies_of_oneName hsha⟩,
    fun app app' hrules hrules' => eq_of_digestAppRecords_eq hsha hrules hrules'⟩
  rcases lt_trichotomy v w with hlt | heq | hgt
  · exact absurd h (not_identifies_of_lt hv hw hvc hwc hlt)
  · exact heq
  · exact absurd h (not_identifies_of_lt hw hv hwc hvc hgt)

/-! ### A shop with a cart -/

section Shop

def cart : Text := nameText "cart" (by decide +kernel)
def mail : Text := nameText "mail" (by decide +kernel)
def shop : Text := nameText "shop" (by decide +kernel)

/-- With one version string all digests are different, with two that are names they are not. -/
theorem release_versions_identified :
    Identifies id {"1.0.0"} ∧ ¬ Identifies id {"1.0.0", "cart"} := by
  have hiff := (digest_identifies_iff Function.injective_id).1
  constructor
  · rw [hiff]
    rintro v rfl w rfl - -
    rfl
  · rw [hiff]
    intro hone
    have heq := hone "1.0.0" (by simp) "cart" (by simp) (by decide +kernel) (by decide +kernel)
    simp at heq

/-- The cart needs the mail in one manifest and the mail the cart in the other. -/
theorem manifests_share_digest :
    validateManifest id
        (manifestOf id shop [bare cart cart [mail], bare mail cart [], bare shop cart [cart, mail]]) =
      .ok () ∧
    validateManifest id
        (manifestOf id shop [bare cart cart [], bare mail mail [cart], bare shop cart [cart, mail]]) =
      .ok () ∧
    (manifestOf id shop
        [bare cart cart [mail], bare mail cart [], bare shop cart [cart, mail]]).bundleDigest =
      (manifestOf id shop
        [bare cart cart [], bare mail mail [cart], bare shop cart [cart, mail]]).bundleDigest ∧
    [bare cart cart [mail], bare mail cart [], bare shop cart [cart, mail]] ≠
      [bare cart cart [], bare mail mail [cart], bare shop cart [cart, mail]] := by
  obtain ⟨h₁, h₂⟩ := acceptable_rootLast (a := cart) (b := mail) (r := shop) (by decide +kernel)
    (by decide +kernel) (by decide +kernel) (by decide +kernel) (by decide +kernel)
  exact ⟨h₁.accepted, h₂.accepted, digest_eq_of_tokens_eq rfl, by simp⟩

end Shop

end Temper.Platform.AppBundle
