import Mupnp.Foundation.ListCut
import Mupnp.Foundation.UriReference
import Mupnp.Net.NetUri
import Mupnp.Util.LongString

/-!
# What the scanner makes of a URI

One lemma for each step of the scanner, on a text that is written from the components of a URI:
which components it finds again, and when.
-/

set_option autoImplicit false
set_option relaxedAutoImplicit false

namespace Mupnp.Net

open Foundation Util

/-! ### The protocol -/

theorem readProtocol_scheme {scheme : CString} (hne : scheme ≠ []) (hcolon : ':' ∉ scheme)
    (rest : CString) : readProtocol (scheme ++ ':' :: '/' :: '/' :: rest) =
    (some scheme, rest) := by
  have hindex : strstr (some (scheme ++ ':' :: '/' :: '/' :: rest)) (some "://".toList) =
      scheme.length := by
    have happend := @indexOf_append ':' ['/', '/'] scheme hcolon rest
    rw [List.append_assoc] at happend
    have hsame : "://".toList = [':', '/', '/'] := by decide
    rw [hsame]
    simp only [strstr]
    rw [show scheme ++ ':' :: '/' :: '/' :: rest = scheme ++ ([':', '/', '/'] ++ rest) from rfl,
      happend]
  have hpos : 0 < scheme.length := List.length_pos_iff.mpr hne
  unfold readProtocol
  simp only [hindex]
  rw [if_pos (by omega)]
  simp

theorem readProtocol_of_no_scheme {value : CString} (h : ¬ "://".toList <:+: value) :
    readProtocol value = (none, value) := by
  have hindex : ¬ 0 ≤ strstr (some value) (some "://".toList) := fun hle ↦
    h (strstr_nonneg_iff.mp hle)
  unfold readProtocol
  simp only
  rw [if_neg (by omega)]

/-- Everything in front of the first delimiter is the protocol. -/
theorem exists_protocol_of_infix {text : CString} (hwithin : "://".toList <:+: text)
    (hhead : text.head? ≠ some ':') :
    ∃ before after, text = before ++ ':' :: '/' :: '/' :: after ∧ before ≠ [] ∧
      (readProtocol text).1 = some before := by
  have hdelim : "://".toList = [':', '/', '/'] := by decide
  cases hindex : indexOf "://".toList text with
  | none => exact absurd hwithin (indexOf_eq_none_iff.mp hindex)
  | some position =>
    obtain ⟨before, after, hsplit, hlength⟩ := exists_of_indexOf_eq_some hindex
    have hstrstr : strstr (some text) (some "://".toList) = position := by
      simp only [strstr, hindex]
    rw [hdelim, List.append_assoc] at hsplit
    have hne : before ≠ [] := by
      rintro rfl
      refine hhead ?_
      rw [hsplit]
      rfl
    have hpos : 0 < before.length := List.length_pos_iff.mpr hne
    refine ⟨before, after, hsplit, hne, ?_⟩
    unfold readProtocol
    simp only [hstrstr]
    rw [if_pos (by omega)]
    simp only [Int.toNat_natCast, ← hlength]
    rw [hsplit, List.take_left]

/-! ### The user -/

/-- The user information that a user and a password were taken from. -/
def userText (user password : Option CString) : Option CString :=
  user.map fun user ↦ user ++ portText password

theorem readUser_of_not_mem {text : CString} (h : '@' ∉ text) :
    readUser text = (none, none, text) := by
  have hindex : strstr (some text) (some "@".toList) = -1 := strstr_singleton_of_not_mem h
  unfold readUser
  simp only [hindex]
  rw [if_neg (by decide)]

/-- An at sign in front of everything is not looked behind. -/
theorem readUser_cons_at (after : CString) :
    readUser ('@' :: after) = (none, none, '@' :: after) := by
  have hindex : strstr (some ('@' :: after)) (some "@".toList) = 0 :=
    @strstr_singleton_append '@' [] List.not_mem_nil after
  unfold readUser
  simp only [hindex]
  rw [if_neg (by decide)]

/-- A first colon in front of the first at sign separates the user from the password. -/
theorem readUser_password {user password : CString} (hne : user ≠ []) (huser : '@' ∉ user)
    (hcolon : ':' ∉ user) (hpassword : '@' ∉ password) (after : CString) :
    readUser (user ++ ':' :: password ++ '@' :: after) = (some user, some password, after) := by
  have hbefore : '@' ∉ user ++ ':' :: password := by
    rw [List.mem_append, List.mem_cons, not_or, not_or]
    exact ⟨huser, by decide, hpassword⟩
  have hindex : strstr (some (user ++ ':' :: password ++ '@' :: after)) (some "@".toList) =
      (user ++ ':' :: password).length := strstr_singleton_append hbefore after
  have hcolonIdx : strstr (some (user ++ ':' :: password ++ '@' :: after)) (some ":".toList) =
      user.length := by
    rw [List.append_assoc, List.cons_append]
    exact strstr_singleton_append hcolon _
  have hpos : 0 < user.length := List.length_pos_iff.mpr hne
  have hlength : (user ++ ':' :: password).length = user.length + (password.length + 1) := by
    rw [List.length_append, List.length_cons]
  unfold readUser
  simp only [hindex, hcolonIdx]
  rw [hlength, if_pos (by omega), if_pos (by omega)]
  simp only [Int.toNat_natCast]
  rw [show user.length + (password.length + 1) - (user.length + 1) = password.length by omega]
  have hleft : (user ++ ':' :: password ++ '@' :: after).drop
      (user.length + (password.length + 1) + 1) = after := by
    rw [← hlength, ← List.drop_drop, List.drop_left]
    rfl
  rw [hleft]
  simp

/-- Without a colon, or with a colon in front, the whole text up to the at sign is the user. -/
theorem readUser_user {user : CString} (hne : user ≠ []) (huser : '@' ∉ user)
    (hcolon : ':' ∉ user ∨ user.head? = some ':') (after : CString) :
    readUser (user ++ '@' :: after) = (some user, none, after) := by
  have hindex : strstr (some (user ++ '@' :: after)) (some "@".toList) = user.length :=
    strstr_singleton_append huser after
  have hpos : 0 < user.length := List.length_pos_iff.mpr hne
  have hleft : (user ++ '@' :: after).drop (user.length + 1) = after := by simp
  have hbound : ¬ (0 < strstr (some (user ++ '@' :: after)) (some ":".toList) ∧
      strstr (some (user ++ '@' :: after)) (some ":".toList) < user.length) := by
    rintro ⟨hcolonPos, hlt⟩
    rcases hcolon with hcolon | hhead
    · rcases strstr_singleton_append_of_not_mem hcolon ('@' :: after) with hnone | hlater
      · have hcolonIdx : strstr (some (user ++ '@' :: after)) (some ":".toList) = -1 := hnone
        omega
      · have hcolonIdx : (user.length : ℤ) ≤
            strstr (some (user ++ '@' :: after)) (some ":".toList) := hlater
        omega
    · obtain ⟨rest, rfl⟩ := List.head?_eq_some_iff.mp hhead
      have hcolonIdx : strstr (some (':' :: rest ++ '@' :: after)) (some ":".toList) = 0 :=
        @strstr_singleton_append ':' [] List.not_mem_nil (rest ++ '@' :: after)
      omega
  unfold readUser
  simp only [hindex]
  rw [if_pos (by omega), if_neg hbound]
  simp only [Int.toNat_natCast, hleft, List.take_left']

/-- The text in front of the first at sign is the user with the password. -/
theorem readUser_append_at {before : CString} (hne : before ≠ []) (h : '@' ∉ before)
    (after : CString) :
    ∃ user password, readUser (before ++ '@' :: after) = (some user, password, after) ∧
      userText (some user) password = some before := by
  by_cases hcolon : ':' ∈ before
  · obtain ⟨user, password, rfl, huserColon⟩ := List.eq_append_cons_of_mem hcolon
    by_cases huser : user = []
    · rw [huser] at h hne ⊢
      refine ⟨[] ++ ':' :: password, none, readUser_user hne h (Or.inr rfl) after, ?_⟩
      rw [userText, Option.map_some, portText, Option.elim_none, List.append_nil]
    · rw [List.mem_append, List.mem_cons, not_or, not_or] at h
      exact ⟨user, some password, readUser_password huser h.1 huserColon h.2.2 after, rfl⟩
  · refine ⟨before, none, readUser_user hne h (Or.inl hcolon) after, ?_⟩
    rw [userText, Option.map_some, portText, Option.elim_none, List.append_nil]

/-! ### The host -/

/-- A slash in front of everything ends no host. -/
theorem readHost_slash (rest : CString) :
    readHost true ('/' :: rest) = (some ('/' :: rest), []) := by
  have hindex : strstr (some ('/' :: rest)) (some "/".toList) = 0 :=
    @strstr_singleton_append '/' [] List.not_mem_nil rest
  unfold readHost
  simp only [hindex]
  rw [if_neg (by decide), if_pos trivial]

/-- Everything up to the first slash is the host of an absolute URI. -/
theorem readHost_absolute {text : CString} (hhead : text.head? ≠ some '/') :
    readHost true text = (some (text.takeWhile (· ≠ '/')), text.dropWhile (· ≠ '/')) := by
  by_cases hslash : '/' ∈ text
  · obtain ⟨host, left, rfl, hhost⟩ := List.eq_append_cons_of_mem hslash
    have hindex : strstr (some (host ++ '/' :: left)) (some "/".toList) = host.length :=
      strstr_singleton_append hhost left
    have hpos : 0 < host.length := by
      refine List.length_pos_iff.mpr ?_
      rintro rfl
      exact hhead rfl
    have htake : (host ++ '/' :: left).takeWhile (· ≠ '/') = host :=
      takeWhile_ne_append_cons hhost left
    have hdrop : (host ++ '/' :: left).dropWhile (· ≠ '/') = '/' :: left :=
      dropWhile_ne_append_cons hhost left
    rw [htake, hdrop]
    unfold readHost
    simp only [hindex]
    rw [if_pos (by omega)]
    simp
  · have hindex : strstr (some text) (some "/".toList) = -1 := strstr_singleton_of_not_mem hslash
    rw [takeWhile_ne_of_not_mem hslash, dropWhile_ne_of_not_mem hslash]
    unfold readHost
    simp only [hindex]
    rw [if_neg (by decide), if_pos trivial]

theorem lastIndexOf_of_not_mem {c : Char} {str : CString} (h : c ∉ str) :
    lastIndexOf c str = none := by
  induction str with
  | nil => rfl
  | cons d rest ih =>
    rw [List.mem_cons, not_or] at h
    rw [lastIndexOf, ih h.2]
    exact if_neg fun heq ↦ h.1 heq.symm

theorem lastIndexOf_append {c : Char} {after : CString} (h : c ∉ after) (before : CString) :
    lastIndexOf c (before ++ c :: after) = some before.length := by
  induction before with
  | nil => rw [List.nil_append, lastIndexOf, lastIndexOf_of_not_mem h]; exact if_pos rfl
  | cons d rest ih => rw [List.cons_append, lastIndexOf, ih]; rfl

theorem lastIndexOf_append_of_not_mem {c : Char} {after : CString} (h : c ∉ after)
    (before : CString) : lastIndexOf c (before ++ after) = lastIndexOf c before := by
  induction before with
  | nil => rw [List.nil_append, lastIndexOf_of_not_mem h]; rfl
  | cons d rest ih => rw [List.cons_append, lastIndexOf, lastIndexOf, ih]

theorem lastIndexOf_lt {c : Char} {str : CString} {position : ℕ}
    (h : lastIndexOf c str = some position) : position < str.length := by
  induction str generalizing position with
  | nil => cases h
  | cons d rest ih =>
    rw [lastIndexOf] at h
    cases hrest : lastIndexOf c rest with
    | none =>
      simp only [hrest] at h
      split_ifs at h
      rw [Option.some.injEq] at h
      rw [List.length_cons]
      omega
    | some later =>
      simp only [hrest, Option.some.injEq] at h
      have hlt := ih hrest
      rw [List.length_cons]
      omega

/-- The last occurrence of a character. -/
theorem exists_last_of_mem {c : Char} {str : CString} (h : c ∈ str) :
    ∃ before after, str = before ++ c :: after ∧ c ∉ after := by
  obtain ⟨front, back, hsplit, hfront⟩ := List.eq_append_cons_of_mem (List.mem_reverse.mpr h)
  refine ⟨back.reverse, front.reverse, ?_, ?_⟩
  · have hreverse := congrArg List.reverse hsplit
    rw [List.reverse_reverse] at hreverse
    rw [hreverse]
    simp
  · rwa [List.mem_reverse]

/-- A host without the brackets around it. -/
def withoutBrackets (host : CString) : CString :=
  if host.head? = some '[' ∧ host.getLast? = some ']' then (host.drop 1).dropLast else host

/-- A host ends with a port when a colon stands behind its first character and no closing bracket
behind that colon. -/
def EndsWithPort (host : CString) : Prop :=
  ∃ name digits, name ≠ [] ∧ ':' ∉ digits ∧ ']' ∉ digits ∧ host = name ++ ':' :: digits

theorem splitPort_append_port {name digits : CString} (hne : name ≠ []) (hcolon : ':' ∉ digits)
    (hbracket : ']' ∉ digits) (protocol : Option CString) :
    splitPort protocol (some (name ++ ':' :: digits)) =
      (some (withoutBrackets name), atoi digits) := by
  have hpos : 0 < name.length := List.length_pos_iff.mpr hne
  have hcolonIdx : strrchr (some (name ++ ':' :: digits)) ':' = name.length := by
    simp only [strrchr, Option.bind_some, lastIndexOf_append hcolon]
  have hbracketIdx : strrchr (some (name ++ ':' :: digits)) ']' < name.length := by
    have hbehind : ']' ∉ ':' :: digits := by
      rw [List.mem_cons, not_or]
      exact ⟨by decide, hbracket⟩
    simp only [strrchr, Option.bind_some, lastIndexOf_append_of_not_mem hbehind]
    cases hlast : lastIndexOf ']' name with
    | none =>
      simp only
      omega
    | some position =>
      have hlt := lastIndexOf_lt hlast
      simp only
      omega
  have hname : (name ++ ':' :: digits).take name.length = name := List.take_left
  have hdigits : (name ++ ':' :: digits).drop (name.length + 1) = digits := by simp
  have hbare : ((name ++ ':' :: digits).drop 1).take (name.length - 2) =
      (name.drop 1).dropLast := by
    rw [List.dropLast_eq_take, List.length_drop, List.drop_append_of_le_length (by omega),
      List.take_append_of_le_length (by rw [List.length_drop]; omega)]
    rfl
  unfold splitPort withoutBrackets
  simp only [hcolonIdx]
  rw [if_pos ⟨by omega, hbracketIdx⟩]
  simp only [Option.getD_some, Int.toNat_natCast, hname, hdigits, hbare]

theorem splitPort_of_not_endsWithPort {host : CString} (h : ¬ EndsWithPort host)
    (protocol : Option CString) :
    splitPort protocol (some host) = (some host, defaultPort protocol) := by
  have hnot : ¬ (0 < strrchr (some host) ':' ∧
      strrchr (some host) ']' < strrchr (some host) ':') := by
    rintro ⟨hpos, hbracket⟩
    by_cases hmem : ':' ∈ host
    · obtain ⟨name, digits, rfl, hcolon⟩ := exists_last_of_mem hmem
      have hcolonIdx : strrchr (some (name ++ ':' :: digits)) ':' = name.length := by
        simp only [strrchr, Option.bind_some, lastIndexOf_append hcolon]
      rw [hcolonIdx] at hpos hbracket
      refine h ⟨name, digits, List.length_pos_iff.mp (by omega), hcolon, fun hclose ↦ ?_, rfl⟩
      obtain ⟨front, back, hback, hlast⟩ := exists_last_of_mem hclose
      have hsplit : name ++ ':' :: digits = (name ++ ':' :: front) ++ ']' :: back := by
        rw [hback]
        simp
      rw [hsplit] at hbracket
      simp only [strrchr, Option.bind_some, lastIndexOf_append hlast, List.length_append,
        List.length_cons] at hbracket
      omega
    · simp only [strrchr, Option.bind_some, lastIndexOf_of_not_mem hmem] at hpos
      omega
  unfold splitPort
  simp only
  rw [if_neg hnot]

/-! ### The port -/

/-- The digits in front of a character that is none of a number are its value. -/
theorem atol_digits {digits behind : CString} (hdigits : ∀ c ∈ digits, c.isDigit = true)
    (hbehind : ∀ c ∈ behind.head?, c = '?' ∨ c = '#') :
    atol (digits ++ behind) = min longMax (digitsValue 0 digits) := by
  have hstop : ∀ c ∈ behind.head?, c.isDigit = false := by
    intro c hc
    rcases hbehind c hc with rfl | rfl <;> rfl
  cases digits with
  | nil =>
    cases behind with
    | nil => rfl
    | cons c rest => rcases hbehind c rfl with rfl | rfl <;> rfl
  | cons c rest =>
    obtain ⟨hspace, hminus, hplus⟩ := ne_of_isDigit (hdigits c List.mem_cons_self)
    unfold atol
    rw [List.cons_append, List.dropWhile_cons, if_neg (by rw [hspace]; decide)]
    rw [← digitsValue_append hdigits hstop 0, List.cons_append]
    split
    next heq => exact absurd (List.cons.inj heq).1 hminus
    next heq => exact absurd (List.cons.inj heq).1 hplus
    next => rfl

/-- The value of the digits is read when it fits an `int`. -/
theorem atoi_digits_eq_iff {digits behind : CString} (hdigits : ∀ c ∈ digits, c.isDigit = true)
    (hbehind : ∀ c ∈ behind.head?, c = '?' ∨ c = '#') :
    atoi (digits ++ behind) = digitsValue 0 digits ↔ digitsValue 0 digits < 2 ^ 31 := by
  rw [atoi, atol_digits hdigits hbehind, BitVec.toInt_ofInt]
  unfold longMax
  have hmod := Int.bmod_def (min (2 ^ 63 - 1) (digitsValue 0 digits : ℤ)) (2 ^ 32)
  rw [hmod]
  split_ifs <;> omega

/-- The default port of a scheme, as far as the scanner knows schemes. -/
def schemePort (scheme : CString) : ℤ :=
  if scheme.map Char.toLower = "http".toList then 80
  else if scheme.map Char.toLower = "ftp".toList then 21
  else -1

/-- The port of an authority: the default port of the scheme when none is given. -/
def portNumber (scheme : CString) : Option CString → ℤ
  | none => schemePort scheme
  | some [] => schemePort scheme
  | some digits => digitsValue 0 digits

/-- The scanner reads a port when its digits are there and fit an `int`; without a port it must know
the spelling of the scheme. -/
def PortScans (scheme : CString) : Option CString → Prop
  | none => defaultPort (some scheme) = schemePort scheme
  | some digits => digits ≠ [] ∧ digitsValue 0 digits < 2 ^ 31

instance (scheme : CString) (port : Option CString) : Decidable (PortScans scheme port) := by
  cases port with
  | none => exact inferInstanceAs (Decidable (defaultPort (some scheme) = schemePort scheme))
  | some digits =>
    exact inferInstanceAs (Decidable (digits ≠ [] ∧ digitsValue 0 digits < 2 ^ 31))

theorem atoi_eq_portNumber_iff {digits behind : CString} (scheme : CString)
    (hdigits : ∀ c ∈ digits, c.isDigit = true) (hbehind : ∀ c ∈ behind.head?, c = '?' ∨ c = '#') :
    atoi (digits ++ behind) = portNumber scheme (some digits) ↔ PortScans scheme (some digits) := by
  cases digits with
  | nil =>
    have hzero : atoi ([] ++ behind) = 0 := by
      rw [atoi, atol_digits hdigits hbehind]
      decide
    refine iff_of_false ?_ fun h ↦ h.1 rfl
    rw [hzero]
    show ¬ 0 = schemePort scheme
    unfold schemePort
    split_ifs <;> decide
  | cons c rest =>
    have hvalue := atoi_digits_eq_iff hdigits hbehind
    constructor
    · exact fun h ↦ ⟨List.cons_ne_nil c rest, hvalue.mp h⟩
    · exact fun h ↦ hvalue.mpr h.2

/-! ### The zone index -/

theorem decodeZone_of_not_mem {host : CString} (h : ':' ∉ host ∨ '%' ∉ host) :
    decodeZone (some host) = some host := by
  unfold decodeZone
  rcases h with hcolon | hpercent
  · have hindex : strstr (some host) (some ":".toList) = -1 := strstr_singleton_of_not_mem hcolon
    have hnot : isIpv6Address (some host) = false := by
      rw [isIpv6Address, hindex]
      decide
    rw [hnot]
    exact if_neg (by decide)
  · have hindex : indexOf "%25".toList host = none := by
      rw [indexOf_eq_none_iff]
      exact fun hwithin ↦ hpercent (hwithin.subset (by decide))
    rw [Option.map_some, hindex]
    exact ite_self _

/-- Decoding a zone index takes only digits away. -/
theorem mem_decodeZone {host : CString} {c : Char} (hc : c ∈ host) (htwo : c ≠ '2')
    (hfive : c ≠ '5') : ∃ decoded, decodeZone (some host) = some decoded ∧ c ∈ decoded := by
  unfold decodeZone
  split_ifs with hipv6
  · rw [Option.map_some]
    refine ⟨_, rfl, ?_⟩
    cases hindex : indexOf "%25".toList host with
    | none => exact hc
    | some zone =>
      obtain ⟨before, after, hhost, hlength⟩ := exists_of_indexOf_eq_some hindex
      have hzone : "%25".toList = ['%', '2', '5'] := by decide
      rw [hzone] at hhost
      have htake : host.take (zone + 1) = before ++ ['%'] := by
        rw [hhost, ← hlength, List.append_assoc, List.take_length_add_append]
        rfl
      have hdrop : host.drop (zone + 3) = after := by
        rw [hhost, ← hlength, List.append_assoc, List.drop_length_add_append]
        rfl
      simp only [htake, hdrop]
      rw [hhost] at hc
      simp only [List.mem_append, List.mem_cons, List.not_mem_nil, or_false] at hc ⊢
      rcases hc with (hbefore | hpercent | h | h) | hafter
      · exact Or.inl (Or.inl hbefore)
      · exact Or.inl (Or.inr hpercent)
      · exact absurd h htwo
      · exact absurd h hfive
      · exact Or.inr hafter
  · exact ⟨host, rfl, hc⟩

/-! ### The path and the query -/

theorem sharp_not_mem_append_queryText {path : CString} (hpath : '#' ∉ path)
    {query : Option CString} (hquery : ∀ text ∈ query, '#' ∉ text) :
    '#' ∉ path ++ queryText query := by
  rw [List.mem_append, not_or]
  refine ⟨hpath, ?_⟩
  cases query with
  | none => exact List.not_mem_nil
  | some text =>
    rw [queryText, Option.elim_some, List.mem_cons, not_or]
    exact ⟨by decide, hquery text rfl⟩

theorem readPath_append {path : CString} (hpath : ∀ c ∈ path, c ≠ '?' ∧ c ≠ '#')
    {query : Option CString} (hquery : ∀ text ∈ query, '#' ∉ text) :
    readPath (path ++ queryText query) = path := by
  have hquestion : '?' ∉ path := fun hmem ↦ (hpath _ hmem).1 rfl
  have hsharp : '#' ∉ path := fun hmem ↦ (hpath _ hmem).2 rfl
  cases query with
  | none =>
    have hquestionIdx : strstr (some path) (some "?".toList) = -1 :=
      strstr_singleton_of_not_mem hquestion
    have hsharpIdx : strstr (some path) (some "#".toList) = -1 := strstr_singleton_of_not_mem hsharp
    rw [queryText, Option.elim_none, List.append_nil]
    unfold readPath
    simp only [hquestionIdx, hsharpIdx]
    rw [if_neg (by decide), if_neg (by decide)]
  | some query =>
    have hquestionIdx : strstr (some (path ++ '?' :: query)) (some "?".toList) = path.length :=
      strstr_singleton_append hquestion query
    have hsharpIdx : strstr (some (path ++ '?' :: query)) (some "#".toList) = -1 :=
      strstr_singleton_of_not_mem (sharp_not_mem_append_queryText hsharp hquery)
    rw [queryText, Option.elim_some]
    unfold readPath
    simp only [hquestionIdx, hsharpIdx]
    rw [if_pos ⟨Int.natCast_nonneg _, Or.inl (by decide)⟩]
    simp

theorem readQuery_append {path : CString} (hpath : ∀ c ∈ path, c ≠ '?' ∧ c ≠ '#')
    {query : Option CString} (hquery : ∀ text ∈ query, '#' ∉ text) :
    readQuery (path ++ queryText query) = query := by
  have hquestion : '?' ∉ path := fun hmem ↦ (hpath _ hmem).1 rfl
  have hsharp : '#' ∉ path := fun hmem ↦ (hpath _ hmem).2 rfl
  cases query with
  | none =>
    have hquestionIdx : strstr (some path) (some "?".toList) = -1 :=
      strstr_singleton_of_not_mem hquestion
    rw [queryText, Option.elim_none, List.append_nil]
    unfold readQuery
    simp only [hquestionIdx]
    rw [if_neg (by omega)]
  | some query =>
    have hquestionIdx : strstr (some (path ++ '?' :: query)) (some "?".toList) = path.length :=
      strstr_singleton_append hquestion query
    have hsharpIdx : strstr (some (path ++ '?' :: query)) (some "#".toList) = -1 :=
      strstr_singleton_of_not_mem (sharp_not_mem_append_queryText hsharp hquery)
    rw [queryText, Option.elim_some]
    unfold readQuery
    simp only [hquestionIdx, hsharpIdx]
    rw [if_pos ⟨Int.natCast_nonneg _, Or.inl (by decide)⟩, if_neg (by decide)]
    simp

/-- A text with a question mark is a path and a query. -/
theorem exists_query {text : CString} (h : '?' ∈ text) (hsharp : '#' ∉ text) :
    ∃ front query, text = front ++ '?' :: query ∧ '?' ∉ front ∧ readPath text = front ∧
      readQuery text = some query := by
  obtain ⟨front, query, rfl, hfront⟩ := List.eq_append_cons_of_mem h
  rw [List.mem_append, List.mem_cons, not_or, not_or] at hsharp
  have hpath : ∀ c ∈ front, c ≠ '?' ∧ c ≠ '#' :=
    fun c hc ↦ ⟨ne_of_mem_of_not_mem hc hfront, ne_of_mem_of_not_mem hc hsharp.1⟩
  have hquery : ∀ text ∈ some query, '#' ∉ text := by
    intro text htext
    rw [← Option.some.inj htext]
    exact hsharp.2.2
  exact ⟨front, query, rfl, hfront, readPath_append hpath hquery, readQuery_append hpath hquery⟩

/-- Without a fragment the path is what stands in front of the first question mark. -/
theorem readPath_eq_takeWhile {text : CString} (hsharp : '#' ∉ text) :
    readPath text = text.takeWhile (· ≠ '?') := by
  by_cases hmem : '?' ∈ text
  · obtain ⟨front, query, hsplit, hfront, hread, -⟩ := exists_query hmem hsharp
    rw [hread, hsplit, takeWhile_ne_append_cons hfront]
  · have hpath : ∀ c ∈ text, c ≠ '?' ∧ c ≠ '#' :=
      fun c hc ↦ ⟨ne_of_mem_of_not_mem hc hmem, ne_of_mem_of_not_mem hc hsharp⟩
    have hread := @readPath_append _ hpath none (by simp)
    rw [queryText, Option.elim_none, List.append_nil] at hread
    rw [hread, takeWhile_ne_of_not_mem hmem]

/-! ### Hosts -/

theorem mem_withoutBrackets {host : CString} {c : Char} (hc : c ∈ host) (hopen : c ≠ '[')
    (hclose : c ≠ ']') : c ∈ withoutBrackets host := by
  unfold withoutBrackets
  split_ifs with hbrackets
  · obtain ⟨hhead, hlast⟩ := hbrackets
    obtain ⟨rest, rfl⟩ := List.head?_eq_some_iff.mp hhead
    rw [List.drop_succ_cons, List.drop_zero]
    have hrest : c ∈ rest := (List.mem_cons.mp hc).resolve_left hopen
    obtain ⟨front, hfront⟩ := List.getLast?_eq_some_iff.mp hlast
    rcases List.eq_nil_or_concat rest with hnil | ⟨body, last, hbody⟩
    · rw [hnil] at hrest
      cases hrest
    · rw [List.concat_eq_append] at hbody
      rw [hbody, ← List.cons_append] at hfront
      obtain ⟨-, hclosing⟩ := List.append_inj' hfront rfl
      rw [hbody, List.dropLast_concat]
      rw [hbody, List.mem_append, List.mem_singleton] at hrest
      refine hrest.resolve_right fun heq ↦ hclose ?_
      rw [heq]
      exact (List.cons.inj hclosing).1
  · exact hc

theorem mem_of_mem_withoutBrackets {host : CString} {c : Char} (hc : c ∈ withoutBrackets host) :
    c ∈ host := by
  unfold withoutBrackets at hc
  split_ifs at hc
  · exact List.mem_of_mem_drop (List.dropLast_subset _ hc)
  · exact hc

theorem withoutBrackets_brackets (address : CString) :
    withoutBrackets ('[' :: (address ++ [']'])) = address := by
  unfold withoutBrackets
  rw [if_pos ⟨rfl, by rw [← List.cons_append, List.getLast?_concat]⟩, List.drop_succ_cons,
    List.drop_zero, List.dropLast_concat]

theorem withoutBrackets_of_not_mem {host : CString} (h : '[' ∉ host) :
    withoutBrackets host = host := by
  unfold withoutBrackets
  refine if_neg fun hbrackets ↦ h ?_
  exact List.mem_of_mem_head? hbrackets.1

section hosts

variable {host : CString} (h : UriAuthority.IsHost host)
include h

theorem isHost_ne_nil : host ≠ [] := by
  rcases h with ⟨hne, -⟩ | ⟨address, rfl, -⟩
  · exact hne
  · exact List.cons_ne_nil _ _

theorem isHost_not_mem {c : Char} (hc : c ∈ "/?#@".toList) : c ∉ host := by
  rcases h with ⟨-, htext⟩ | ⟨address, rfl, htext⟩
  · have hsub : "/?#@".toList ⊆ ":/?#[]@".toList := by decide
    exact htext.not_mem (hsub hc)
  · have hsub : "/?#@".toList ⊆ "/?#[]@%".toList := by decide
    have hne : ∀ c ∈ "/?#@".toList, c ≠ '[' ∧ c ≠ ']' := by decide
    rw [List.mem_cons, List.mem_append, List.mem_singleton, not_or, not_or]
    exact ⟨(hne c hc).1, htext.not_mem (hsub hc), (hne c hc).2⟩

theorem isHost_not_endsWithPort : ¬ EndsWithPort host := by
  rintro ⟨name, digits, hname, -, hbracket, hsplit⟩
  rcases h with ⟨-, htext⟩ | ⟨address, hhost, -⟩
  · refine htext.not_mem (by decide : ':' ∈ ":/?#[]@".toList) ?_
    rw [hsplit]
    exact List.mem_append_right name List.mem_cons_self
  · have hlast : host.getLast? = some ']' := by
      rw [hhost, ← List.cons_append, List.getLast?_concat]
    rw [hsplit] at hlast
    rcases List.eq_nil_or_concat digits with hnil | ⟨front, last, hdigits⟩
    · rw [hnil, List.getLast?_concat] at hlast
      exact absurd hlast (by decide)
    · rw [hdigits, List.concat_eq_append, ← List.cons_append, ← List.append_assoc,
        List.getLast?_concat, Option.some.injEq] at hlast
      refine hbracket ?_
      rw [hdigits, hlast, List.concat_eq_append]
      exact List.mem_append_right front List.mem_cons_self

theorem isHost_decodeZone : decodeZone (some host) = some host := by
  refine decodeZone_of_not_mem ?_
  rcases h with ⟨-, htext⟩ | ⟨address, rfl, htext⟩
  · exact Or.inl (htext.not_mem (by decide))
  · refine Or.inr ?_
    rw [List.mem_cons, List.mem_append, List.mem_singleton, not_or, not_or]
    exact ⟨by decide, htext.not_mem (by decide), by decide⟩

theorem isHost_withoutBrackets :
    decodeZone (some (withoutBrackets host)) = some (withoutBrackets host) ∧
      withoutBrackets (withoutBrackets host) = withoutBrackets host := by
  rcases h with ⟨-, htext⟩ | ⟨address, rfl, htext⟩
  · have hself : withoutBrackets host = host :=
      withoutBrackets_of_not_mem (htext.not_mem (by decide))
    rw [hself]
    exact ⟨decodeZone_of_not_mem (Or.inl (htext.not_mem (by decide))), hself⟩
  · rw [withoutBrackets_brackets]
    exact ⟨decodeZone_of_not_mem (Or.inr (htext.not_mem (by decide))),
      withoutBrackets_of_not_mem (htext.not_mem (by decide))⟩

end hosts

end Mupnp.Net
