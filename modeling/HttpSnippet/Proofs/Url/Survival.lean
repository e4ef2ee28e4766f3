import HttpSnippet.Proofs.Url.Parts
import HttpSnippet.Proofs.Url.Variable

/-!
# Placeholders in a text that is taken apart

A URL text is taken apart at its marks first, and placeholders are replaced in its segments after
that. A mark is not asked whether it stands in a placeholder, so a name that holds one may be cut in
two, and then nothing is put in its place. All placeholders of a name are replaced exactly if no
mark at which the text is taken apart stands in one of them.
-/
namespace HttpSnippet.Url

variable {bound : List UrlVariable} {t x v r name value authority path : Text} {i : Nat}

/-! ### Addresses -/

/-- A text with a scheme, an authority and a path. -/
def address (authority path : Text) : Text := "http://" ++ (authority ++ '/' :: path)

/-- What is read of the path: white space at the end and slashes in front count for nothing. -/
def keptPath (path : Text) : Text := (path.rdropWhile Text.isBlank).dropWhile (· = '/')

/-- The authority that is read of a text. -/
def readAuthority (t : Text) : Text := withoutUser ((queryless t).upTo '/')

/-- The path that is read of a text, with its slashes in front. -/
def readPath (t : Text) : Text := ((queryless t).behind? '/').getD []

theorem strip_address : (address authority path).strip =
    ("http" : Text) ++ (("://" : Text) ++ (authority ++ '/' :: path.rdropWhile Text.isBlank)) := by
  have haddress : address authority path =
      'h' :: (((("ttp" : Text) ++ "://") ++ authority) ++ '/' :: path) := by
    simp only [List.append_assoc]
    rfl
  rw [haddress, Text.strip_append (by decide) (by decide)]
  simp only [List.append_assoc]
  rfl

theorem schemeless_address : schemeless (address authority path).strip =
    authority ++ '/' :: path.rdropWhile Text.isBlank := by
  have hcut (rest : Text) : Text.cut? (("http" : Text) ++ (("://" : Text) ++ rest)) "://" =
      some ("http".toList, rest) := Text.cut?_separator (by decide) (by decide) rest
  rw [schemeless, strip_address, hcut]
  rfl

theorem isSuffix_withoutUser (authority : Text) : withoutUser authority <:+ authority := by
  unfold withoutUser
  cases hcut : authority.cutLast? '@' with
  | none => exact List.suffix_rfl
  | some cut =>
    refine ⟨cut.1 ++ ['@'], ?_⟩
    rw [Option.map_some, Option.getD_some, List.append_assoc]
    exact (Text.append_of_cutLast?_eq_some hcut).symm

theorem not_mem_withoutUser (authority : Text) : '@' ∉ withoutUser authority := by
  unfold withoutUser
  cases hcut : authority.cutLast? '@' with
  | none => exact Text.cutLast?_eq_none_iff.mp hcut
  | some cut => exact Text.not_mem_of_cutLast?_eq_some hcut

theorem isPrefix_queryless (t : Text) : queryless t <+: schemeless t :=
  (Text.isPrefix_upTo _ _).trans (Text.isPrefix_upTo _ _)

theorem avoids_upTo_upTo (t : Text) : (Text.upTo '?' (Text.upTo '#' t)).Avoids "?#" := by
  intro c hc
  obtain rfl | rfl : c = '?' ∨ c = '#' := by simpa using hc
  · exact Text.not_mem_upTo _ _
  · exact fun h => Text.not_mem_upTo _ _ ((Text.isPrefix_upTo _ _).subset h)

theorem avoids_queryless (t : Text) : (queryless t).Avoids "?#" :=
  avoids_upTo_upTo (schemeless t)

theorem avoids_readAuthority (t : Text) : (readAuthority t).Avoids "/?#@" := by
  have hsub : readAuthority t ⊆ (queryless t).upTo '/' := (isSuffix_withoutUser _).subset
  intro c hc hmem
  obtain rfl | rfl | rfl | rfl : c = '/' ∨ c = '?' ∨ c = '#' ∨ c = '@' := by simpa using hc
  · exact Text.not_mem_upTo _ _ (hsub hmem)
  · exact avoids_queryless t _ (by decide) ((Text.isPrefix_upTo _ _).subset (hsub hmem))
  · exact avoids_queryless t _ (by decide) ((Text.isPrefix_upTo _ _).subset (hsub hmem))
  · exact not_mem_withoutUser _ hmem

theorem length_readAuthority_le :
    (readAuthority (address authority path).strip).length ≤ authority.length := by
  refine (isSuffix_withoutUser _).length_le.trans ?_
  have hprefix := (Text.isPrefix_upTo '/' (queryless (address authority path).strip)).trans
    (isPrefix_queryless _)
  rw [schemeless_address] at hprefix
  by_contra hlong
  have hslash : authority ++ ['/'] <+: (queryless (address authority path).strip).upTo '/' := by
    refine List.prefix_of_prefix_length_le ?_ hprefix (by simp; omega)
    exact ⟨path.rdropWhile Text.isBlank, by simp⟩
  exact Text.not_mem_upTo _ _ (hslash.subset (by simp))

theorem queryless_address (h : authority.Avoids "/?#@") :
    queryless (address authority path).strip =
      authority ++ '/' :: Text.upTo '?' (Text.upTo '#' (path.rdropWhile Text.isBlank)) := by
  have hquery : '?' ∉ authority ++ ['/'] := by simpa using h '?' (by decide)
  have hhash : '#' ∉ authority ++ ['/'] := by simpa using h '#' (by decide)
  rw [queryless, hashless, schemeless_address, List.append_cons, Text.upTo_append hhash,
    Text.upTo_append hquery, ← List.append_cons]

theorem readAuthority_address (h : authority.Avoids "/?#@") :
    readAuthority (address authority path).strip = authority := by
  rw [readAuthority, queryless_address h, Text.upTo_append_mark (h '/' (by decide)), withoutUser,
    Text.cutLast?_eq_none (h '@' (by decide))]
  rfl

theorem readPath_address (h : authority.Avoids "/?#@") :
    readPath (address authority path).strip =
      Text.upTo '?' (Text.upTo '#' (path.rdropWhile Text.isBlank)) := by
  rw [readPath, queryless_address h, Text.behind?_append_mark (h '/' (by decide))]
  rfl

theorem avoids_readPath (h : authority.Avoids "/?#@") :
    (readPath (address authority path).strip).Avoids "?#" := by
  rw [readPath_address h]
  exact avoids_upTo_upTo _

theorem length_readPath_le (h : authority.Avoids "/?#@") :
    (readPath (address authority path).strip).length ≤ path.length := by
  rw [readPath_address h]
  exact (Text.isPrefix_upTo _ _).length_le.trans <|
    (Text.isPrefix_upTo _ _).length_le.trans (List.rdropWhile_prefix _ _).length_le

/-! ### Hosts -/

/-- The authority with the placeholders in the segments of its host replaced. -/
def boundAuthority (bound : List UrlVariable) (authority : Text) : Text :=
  Text.join "." ((hostSegments (splitPort authority).1).map (substitute bound)) ++
    optionalPart ":" (splitPort authority).2

theorem of_mem_hostSegments {segment : Text} (h : segment ∈ hostSegments t) :
    '.' ∉ segment ∧ segment ⊆ t := by
  unfold hostSegments at h
  split at h
  · cases h
  · exact ⟨Text.not_mem_of_mem_splitOn h, Text.subset_of_mem_splitOn h⟩

theorem boundAuthority_eq_self {mark : Char} (hname : mark ∈ name)
    (h : ∀ segment ∈ hostSegments (splitPort authority).1, mark ∉ segment) :
    boundAuthority [⟨name, value⟩] authority = authority := by
  rw [boundAuthority, Text.join_map_of_forall fun segment hsegment =>
    substitute_eq_self_of_mark hname (h segment hsegment), join_hostSegments, splitPort_append]

theorem host_subset (authority : Text) : (splitPort authority).1 ⊆ authority := by
  have hsub := List.subset_append_left (splitPort authority).1
    (optionalPart ":" (splitPort authority).2)
  rwa [splitPort_append] at hsub

theorem mem_boundAuthority {c : Char} (hdot : c ≠ '.')
    (h : c ∈ boundAuthority [⟨name, value⟩] authority) : c ∈ authority ∨ c ∈ value := by
  rcases List.mem_append.mp h with h | h
  · rcases Text.mem_join h with h | ⟨_, hpiece, h⟩
    · exact absurd (by simpa using h) hdot
    · obtain ⟨segment, hsegment, rfl⟩ := List.mem_map.mp hpiece
      exact (mem_substitute h).imp_left fun hmem =>
        host_subset _ ((of_mem_hostSegments hsegment).2 hmem)
  · rw [← splitPort_append authority]
    exact .inl (List.mem_append_right _ h)

/-! ### Paths -/

/-- A path segment that stands for a variable as a whole, written as a placeholder. -/
def spellSegment (name segment : Text) : Text :=
  if segment = ':' :: name then braced name else segment

/-- The path with every segment that stands for the variable as a whole written as a placeholder. -/
def spelled (name path : Text) : Text :=
  Text.join ['/'] ((Text.splitOn '/' path).map (spellSegment name))

/-- A name that a placeholder can have. -/
structure IsName (name : Text) : Prop where
  ne : name ≠ []
  plain : ∀ c ∈ name, isBrace c = false
  trim : name.strip = name

theorem IsName.substitute_braced (h : IsName name) :
    substitute [⟨name, value⟩] (braced name) = value := by
  have hfilled : Filled [⟨name, value⟩] (braced name) 0 name value :=
    filled_singleton_iff.mpr ⟨⟨h.ne, h.plain, List.prefix_rfl⟩, h.trim, rfl⟩
  exact (replaced_iff.mp (replaced_braced hfilled)).symm

/-- Of a path segment it is enough to say how its placeholders are replaced. -/
theorem IsName.resolvePathSegment_eq (h : IsName name) (segment : Text) :
    resolvePathSegment [⟨name, value⟩] segment =
      substitute [⟨name, value⟩] (spellSegment name segment) := by
  rw [eq_comm, ← showsSegment_iff, spellSegment]
  have hbinds : Binds [⟨name, value⟩] name value := (binds_iff_mem (by simp)).mpr (by simp)
  split
  · next heq =>
    rw [h.substitute_braced]
    exact .named heq hbinds
  · next hne =>
    refine .replaced (fun other v heq hother => hne ?_) (replaced_substitute _ _)
    obtain ⟨rfl, -⟩ : other = name ∧ v = value := by
      simpa using (binds_iff_mem (by simp)).mp hother
    exact heq

theorem spellSegment_eq_self {mark : Char} {segment : Text} (hname : mark ∈ name)
    (h : mark ∉ segment) : spellSegment name segment = segment := by
  rw [spellSegment, if_neg]
  rintro rfl
  exact h (List.mem_cons_of_mem ':' hname)

theorem spelled_eq_self (h : '/' ∈ name) (path : Text) : spelled name path = path := by
  rw [spelled, Text.join_map_of_forall fun segment hsegment =>
    spellSegment_eq_self h (Text.not_mem_of_mem_splitOn hsegment), Text.join_splitOn]

/-- A mark of the path is in the path that is spelled with placeholders. -/
theorem mem_spelled {c : Char} (hslash : c ≠ '/') (hcolon : c ≠ ':') (h : c ∈ path) :
    c ∈ spelled name path := by
  rw [← Text.join_splitOn '/' path] at h
  rcases Text.mem_join h with h | ⟨segment, hsegment, h⟩
  · exact absurd (List.mem_singleton.mp h) hslash
  · refine Text.subset_join (List.mem_map_of_mem hsegment) ?_
    unfold spellSegment
    split
    · next heq =>
      rw [heq] at h
      have hname : c ∈ name := (List.mem_cons.mp h).resolve_left hcolon
      exact List.mem_append_right _ (List.mem_append_left _ hname)
    · exact h

/-- The path with its variable in place, segment by segment. -/
def boundPath (name value path : Text) : Text :=
  Text.join ['/'] ((Text.splitOn '/' path).map
    (fun segment => substitute [⟨name, value⟩] (spellSegment name segment)))

theorem boundPath_eq_self {mark : Char} (hname : mark ∈ name)
    (h : ∀ segment ∈ Text.splitOn '/' path, mark ∉ segment) : boundPath name value path = path := by
  rw [boundPath, Text.join_map_of_forall fun segment hsegment => by
    rw [spellSegment_eq_self hname (h segment hsegment),
      substitute_eq_self_of_mark hname (h segment hsegment)], Text.join_splitOn]

theorem mem_boundPath {c : Char} (hslash : c ≠ '/') (hbrace : isBrace c = false)
    (h : c ∈ boundPath name value path) : c ∈ path ∨ c ∈ value := by
  rcases Text.mem_join h with h | ⟨_, hpiece, h⟩
  · exact absurd (by simpa using h) hslash
  · obtain ⟨segment, hsegment, rfl⟩ := List.mem_map.mp hpiece
    refine (mem_substitute h).imp_left fun hmem => Text.subset_of_mem_splitOn hsegment ?_
    unfold spellSegment at hmem
    split at hmem
    · next heq =>
      rw [heq]
      exact List.mem_cons_of_mem _ (mem_of_mem_braced hbrace hmem)
    · exact hmem

/-! ### Which placeholders are replaced -/

/-- The URL that is read of an address, with its variable in place. -/
def resolvedAddress (authority path name value : Text) : Url :=
  resolve { ofText (address authority path) with pathVariables := [⟨name, value⟩] }

theorem authorityText_resolvedAddress :
    (resolvedAddress authority path name value).hostText ++
        optionalPart ":" (resolvedAddress authority path name value).port =
      boundAuthority [⟨name, value⟩] (readAuthority (address authority path).strip) := by
  have hread := ofText_eq (address authority path)
  dsimp only at hread
  rw [resolvedAddress, resolve_eq, hread, hostText, boundAuthority, readAuthority]

theorem IsName.pathText_resolvedAddress (h : IsName name) :
    (resolvedAddress authority path name value).pathText =
      '/' :: boundPath name value
        ((readPath (address authority path).strip).dropWhile (· = '/')) := by
  have hread := ofText_eq (address authority path)
  dsimp only at hread
  have hsegment : resolvePathSegment [⟨name, value⟩] =
      fun segment => substitute [⟨name, value⟩] (spellSegment name segment) :=
    funext h.resolvePathSegment_eq
  rw [resolvedAddress, resolve_eq, hread, pathText]
  dsimp only
  rw [hsegment, ← readPath, pathSegments, boundPath]
  cases (readPath (address authority path).strip).dropWhile (· = '/') with
  | nil => rfl
  | cons c rest => rfl

/-- Every placeholder of the name in the authority and in the path is replaced by the value in what
is written for the URL: in host and port, and in the path. -/
structure FillsAll (authority path name value : Text) : Prop where
  host : Replaced [⟨name, value⟩] authority
    ((resolvedAddress authority path name value).hostText ++
      optionalPart ":" (resolvedAddress authority path name value).port)
  path : ∃ r, Replaced [⟨name, value⟩] (spelled name (keptPath path)) r ∧
    (resolvedAddress authority path name value).pathText = '/' :: r

/-- No mark at which the address is taken apart stands in a placeholder of the name, and none that
ends authority or path stands in them at all. The text behind the last colon is a port, in which
nothing is replaced. -/
structure Uncut (authority path name : Text) : Prop where
  authorityMarks : authority.Avoids "/?#@"
  pathMarks : path.Avoids "?#"
  dot : '.' ∈ name → ¬ Reaches authority 0 name
  slash : '/' ∈ name → ¬ Reaches (keptPath path) 0 name
  port : ¬ Reaches authority (splitPort authority).1.length name

theorem replaced_hostSegments {host : Text} (h : '.' ∈ name → ¬ Reaches host 0 name) :
    Replaced [⟨name, value⟩] host
      (Text.join "." ((hostSegments host).map (substitute [⟨name, value⟩]))) := by
  have hjoin : Text.join ['.'] (hostSegments host) = host := join_hostSegments host
  have hpieces : Replaced [⟨name, value⟩] (Text.join ['.'] (hostSegments host))
      (Text.join ['.'] ((hostSegments host).map (substitute [⟨name, value⟩]))) := by
    refine Replaced.join (fun _ _ => replaced_substitute _ _) fun i x v hfilled hmark => ?_
    rw [hjoin] at hfilled
    exact h (mem_of_filled (by decide) (by decide) hfilled hmark) (reaches_of_filled hfilled)
  rwa [hjoin] at hpieces

theorem Uncut.replaced_authority (h : Uncut authority path name) :
    Replaced [⟨name, value⟩] authority (boundAuthority [⟨name, value⟩] authority) := by
  have hjoin := splitPort_append authority
  have hhost : Replaced [⟨name, value⟩] (splitPort authority).1
      (Text.join "." ((hostSegments (splitPort authority).1).map
        (substitute [⟨name, value⟩]))) := by
    refine replaced_hostSegments fun hdot hreaches => h.dot hdot ?_
    rw [← hjoin]
    exact hreaches.append_right _
  have hport : Replaced [⟨name, value⟩] (optionalPart ":" (splitPort authority).2)
      (optionalPart ":" (splitPort authority).2) := by
    refine replaced_self fun i x v hfilled => h.port ?_
    have hbehind := (reaches_of_filled hfilled).append_left (splitPort authority).1
    rwa [hjoin] at hbehind
  have happend := hhost.append hport fun i x v hfilled => ?_
  · rwa [hjoin] at happend
  · rw [hjoin] at hfilled
    by_contra hcut
    obtain ⟨hx, hname, -⟩ := filled_singleton_iff.mp hfilled
    exact h.port ⟨i, x, hx, hname, by omega⟩

theorem replaced_boundPath (h : '/' ∈ name → ¬ Reaches path 0 name) :
    Replaced [⟨name, value⟩] (spelled name path) (boundPath name value path) := by
  have hmap : boundPath name value path = Text.join ['/'] (((Text.splitOn '/' path).map
      (spellSegment name)).map (substitute [⟨name, value⟩])) := by
    rw [List.map_map]
    rfl
  rw [hmap]
  refine Replaced.join (fun _ _ => replaced_substitute _ _) fun i x v hfilled hmark => ?_
  have hslash : '/' ∈ name := mem_of_filled (by decide) (by decide) hfilled hmark
  rw [← spelled, spelled_eq_self hslash] at hfilled
  exact h hslash (reaches_of_filled hfilled)

/-- What is kept of a path without the marks of query and hash is what is read of the address. -/
theorem keptPath_eq (hauthority : authority.Avoids "/?#@") (hpath : path.Avoids "?#") :
    (readPath (address authority path).strip).dropWhile (· = '/') = keptPath path := by
  have hsub : path.rdropWhile Text.isBlank ⊆ path := (List.rdropWhile_prefix _ _).subset
  have hhash : '#' ∉ path.rdropWhile Text.isBlank := fun h => hpath '#' (by decide) (hsub h)
  have hquery : '?' ∉ path.rdropWhile Text.isBlank := fun h => hpath '?' (by decide) (hsub h)
  rw [readPath_address hauthority, Text.upTo_eq_self hhash, Text.upTo_eq_self hquery, keptPath]

theorem Uncut.fillsAll (h : Uncut authority path name) (hname : IsName name) (value : Text) :
    FillsAll authority path name value where
  host := by
    rw [authorityText_resolvedAddress, readAuthority_address h.authorityMarks]
    exact h.replaced_authority
  path := by
    refine ⟨boundPath name value (keptPath path), replaced_boundPath h.slash, ?_⟩
    rw [hname.pathText_resolvedAddress, keptPath_eq h.authorityMarks h.pathMarks]

/-- A mark of an address is no white space, no brace and no letter. -/
theorem plain_of_mark {c : Char} (h : c ∈ "/?#@".toList) :
    c ≠ '.' ∧ c ≠ ':' ∧ c ≠ 'v' ∧ Text.isBlank c = false ∧ isBrace c = false := by
  obtain rfl | rfl | rfl | rfl : c = '/' ∨ c = '?' ∨ c = '#' ∨ c = '@' := by simpa using h
  all_goals decide

theorem FillsAll.authorityMarks (h : FillsAll authority path name value)
    (hvalue : ∀ c ∈ value, c = 'v') (hlong : authority.length < value.length) :
    authority.Avoids "/?#@" := by
  intro c hc
  obtain ⟨hdot, -, hv, hblank, hbrace⟩ := plain_of_mark hc
  have hread := avoids_readAuthority (address authority path).strip c hc
  have hhost := h.host
  rw [authorityText_resolvedAddress] at hhost
  refine hhost.not_mem (fun hmem => ?_) hblank hbrace fun hname => ?_
  · exact (mem_boundAuthority hdot hmem).elim hread fun hmem => hv (hvalue c hmem)
  · rw [boundAuthority_eq_self hname fun segment hsegment hmem =>
      hread (host_subset _ ((of_mem_hostSegments hsegment).2 hmem))]
    exact length_readAuthority_le.trans_lt hlong

theorem mem_keptPath {c : Char} (hblank : Text.isBlank c = false) (hslash : c ≠ '/')
    (h : c ∈ path) : c ∈ keptPath path := by
  have hkept := Text.mem_rdropWhile_isBlank hblank h
  have hjoin : (path.rdropWhile Text.isBlank).takeWhile (· = '/') ++ keptPath path =
      path.rdropWhile Text.isBlank := List.takeWhile_append_dropWhile
  rw [← hjoin] at hkept
  refine (List.mem_append.mp hkept).resolve_left fun hmem => hslash ?_
  simpa using List.mem_takeWhile_imp hmem

theorem length_keptPath_le (path : Text) : (keptPath path).length ≤ path.length :=
  (List.dropWhile_suffix _).length_le.trans (List.rdropWhile_prefix _ _).length_le

theorem FillsAll.replaced_path (h : FillsAll authority path name value) (hname : IsName name) :
    Replaced [⟨name, value⟩] (spelled name (keptPath path))
      (boundPath name value ((readPath (address authority path).strip).dropWhile (· = '/'))) := by
  obtain ⟨r, hr, htext⟩ := h.path
  rw [hname.pathText_resolvedAddress] at htext
  exact (List.cons.inj htext).2 ▸ hr

theorem FillsAll.pathMarks (h : FillsAll authority path name value) (hname : IsName name)
    (hauthority : authority.Avoids "/?#@") (hvalue : ∀ c ∈ value, c = 'v')
    (hlong : path.length < value.length) : path.Avoids "?#" := by
  have hsuffix := List.dropWhile_suffix (l := readPath (address authority path).strip)
    (fun c => decide (c = '/'))
  intro c hc
  have hmark : c ∈ "/?#@".toList := by
    obtain rfl | rfl : c = '?' ∨ c = '#' := by simpa using hc
    all_goals decide
  obtain ⟨-, hcolon, hv, hblank, hbrace⟩ := plain_of_mark hmark
  have hslash : c ≠ '/' := by
    rintro rfl
    exact absurd hc (by decide)
  have hspelled : c ∉ spelled name (keptPath path) := by
    refine (h.replaced_path hname).not_mem (fun hmem => ?_) hblank hbrace fun hmem => ?_
    · refine (mem_boundPath hslash hbrace hmem).elim (fun hmem => ?_) fun hmem => ?_
      · exact avoids_readPath hauthority c hc (hsuffix.subset hmem)
      · exact hv (hvalue c hmem)
    · rw [boundPath_eq_self hmem fun segment hsegment hmem =>
        avoids_readPath hauthority c hc
          (hsuffix.subset (Text.subset_of_mem_splitOn hsegment hmem))]
      exact (hsuffix.length_le.trans (length_readPath_le hauthority)).trans_lt hlong
  exact fun hmem => hspelled (mem_spelled hslash hcolon (mem_keptPath hblank hslash hmem))

/-- A long value gives every cut away: there is no room for it in what is written. -/
theorem FillsAll.uncut (h : FillsAll authority path name value) (hname : IsName name)
    (hvalue : ∀ c ∈ value, c = 'v') (hlong : authority.length + path.length < value.length) :
    Uncut authority path name := by
  have hauthority := h.authorityMarks hvalue (by omega)
  have hpath := h.pathMarks hname hauthority hvalue (by omega)
  have hhost := h.host
  rw [authorityText_resolvedAddress, readAuthority_address hauthority] at hhost
  have hkept := h.replaced_path hname
  rw [keptPath_eq hauthority hpath] at hkept
  refine ⟨hauthority, hpath, fun hdot hreaches => ?_, fun hslash hreaches => ?_, ?_⟩
  · have hlength := hhost.length_le hreaches
    rw [boundAuthority_eq_self hdot fun segment hsegment =>
      (of_mem_hostSegments hsegment).1] at hlength
    omega
  · rw [spelled_eq_self hslash] at hkept
    have hlength := hkept.length_le hreaches
    rw [boundPath_eq_self hslash fun segment hsegment =>
      Text.not_mem_of_mem_splitOn hsegment] at hlength
    have hle := length_keptPath_le path
    omega
  · refine Replaced.not_reaches (splitPort_append authority).symm hhost ?_ fun c hc => ?_
    · rintro rfl
      exact absurd hlong (Nat.not_lt_zero _)
    · rw [hvalue c hc]
      decide

/-- All placeholders of a name in authority and path are replaced, whatever the value, exactly if
taking the text apart cuts none of them. -/
theorem fillsAll_iff_uncut (hname : IsName name) (authority path : Text) :
    (∀ value, (∀ c ∈ value, isBrace c = false) → FillsAll authority path name value) ↔
      Uncut authority path name := by
  constructor
  · intro h
    have hvalue : ∀ c ∈ List.replicate (authority.length + path.length + 1) 'v', c = 'v' :=
      fun c hc => List.eq_of_mem_replicate hc
    refine (h (List.replicate (authority.length + path.length + 1) 'v') fun c hc => ?_).uncut
      hname hvalue (by simp)
    rw [hvalue c hc]
    decide
  · exact fun h value _ => h.fillsAll hname value

/-- A colon in the name is in no way as long as a port stands behind it. -/
theorem fillsAll_of_colon :
    let authority : Text := "\x7b\x7bn:1\x7d\x7d.x:80"
    let path : Text := "/a/\x7b\x7b n:1 \x7d\x7d/:n:1"
    IsName "n:1" ∧ Uncut authority path "n:1" ∧ FillsAll authority path "n:1" "v" := by
  intro authority path
  have hname : IsName "n:1" := ⟨by decide, by simp [isBrace], by decide⟩
  have huncut : Uncut authority path "n:1" :=
    ⟨by decide, by decide, by decide, by decide, by decide⟩
  exact ⟨hname, huncut,
    (fillsAll_iff_uncut hname authority path).mpr huncut "v" (by simp [isBrace])⟩

/-- A dot cuts a name, and its placeholder stays. -/
theorem not_fillsAll_of_dot :
    IsName "a.b" ∧ ¬ FillsAll "\x7b\x7ba.b\x7d\x7d" "x" "a.b" "v" := by
  refine ⟨⟨by decide, by simp [isBrace], by decide⟩, fun h => ?_⟩
  exact absurd (replaced_iff.mp h.host) (by decide)

end HttpSnippet.Url
