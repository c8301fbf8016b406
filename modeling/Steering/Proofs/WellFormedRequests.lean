import Steering.Proofs.AddressText
import Steering.Proofs.RequestTarget
import Steering.Report.PopStatus
import Steering.Report.Probe
/-! Which requests can be made: a status document can be asked for at every address, and a
measurement wherever the prober can be reached, if its secret may stand in a header. -/

namespace Steering

namespace Net

/-- Whether a character is one of those of a dotted address or a port. -/
def isHostChar (c : Char) : Bool :=
  c.isDigit || c == '.'

theorem isHostChar_toString {n : Nat} {c : Char} (member : c ∈ (toString n).toList) :
    isHostChar c = true := by
  have digit : c.isDigit = true := by
    rw [Nat.toString_eq_repr, Nat.toList_repr] at member
    exact Nat.isDigit_of_mem_toDigits (by decide) (by decide) member
  rw [isHostChar, digit, Bool.true_or]

theorem length_toString_le {n digits : Nat} (some : 0 < digits) (bound : n < Nat.pow 10 digits) :
    (toString n).toList.length ≤ digits := by
  rw [Nat.toString_eq_repr, Nat.toList_repr]
  exact (Nat.length_toDigits_le_iff (by decide) some).mpr bound

theorem ne_of_isHostChar {c d : Char} (host : isHostChar c = true) (other : isHostChar d = false) :
    c ≠ d := by
  intro same
  rw [same, other] at host
  cases host

/-- The text of a dotted address is short and has only digits and points. -/
theorem Ipv4.plain_text (address : Ipv4) :
    address.text.toList.length ≤ 15 ∧ ∀ c ∈ address.text.toList, isHostChar c = true := by
  obtain ⟨a, b, c, d, first, second, third, fourth, octets, -⟩ := address.octets_cases
  have short {n : Nat} (octet : n < 256) : (toString n).toList.length ≤ 3 :=
    length_toString_le (by decide) (Nat.lt_trans octet (by decide))
  have lengths := And.intro (short first) (And.intro (short second)
    (And.intro (short third) (short fourth)))
  rw [toList_text octets]
  constructor
  · simp only [List.length_append, List.length_cons]
    omega
  · intro char member
    simp only [List.mem_append, List.mem_cons] at member
    rcases member with one | rfl | two | rfl | three | rfl | four
    · exact isHostChar_toString one
    · rfl
    · exact isHostChar_toString two
    · rfl
    · exact isHostChar_toString three
    · rfl
    · exact isHostChar_toString four

namespace Uri

/-- A plain character in an authority changes nothing of what has been seen of it. -/
theorem step_hostChar {scan : AuthorityScan} {c : Char} (host : isHostChar c = true) :
    scan.step c = .ok { scan with endsWithAt := false } := by
  have plain : isAuthorityChar c = true := by
    rw [isHostChar, Bool.or_eq_true, beq_iff_eq] at host
    rcases host with digit | rfl
    · simp [isAuthorityChar, Char.isAlphanum, digit]
    · decide
  have colon : c ≠ ':' := ne_of_isHostChar host rfl
  have opening : c ≠ '[' := ne_of_isHostChar host rfl
  have closing : c ≠ ']' := ne_of_isHostChar host rfl
  have at_sign : c ≠ '@' := ne_of_isHostChar host rfl
  have percent : c ≠ '%' := ne_of_isHostChar host rfl
  have ends : (c == '@') = false := beq_eq_false_iff_ne.mpr at_sign
  simp only [AuthorityScan.step, colon, opening, closing, at_sign, percent, ends, plain, if_true,
    if_false]

theorem foldlM_hostChars {scan : AuthorityScan} {cs : List Char} (seen : scan.endsWithAt = false)
    (host : ∀ c ∈ cs, isHostChar c = true) : cs.foldlM AuthorityScan.step scan = .ok scan := by
  induction cs with
  | nil => rfl
  | cons c cs ih =>
    have same : { scan with endsWithAt := false } = scan := by rw [← seen]
    rw [List.foldlM_cons, step_hostChar (host c (List.mem_cons_self ..)), same]
    exact ih fun other member => host other (List.mem_cons_of_mem c member)

/-- A host and a port make an authority. -/
theorem checkAuthority_hostPort {host port : List Char} (plain : ∀ c ∈ host, isHostChar c = true)
    (digits : ∀ c ∈ port, isHostChar c = true) :
    checkAuthority (host ++ ':' :: port) = .ok () := by
  rw [checkAuthority, List.foldlM_append, foldlM_hostChars rfl plain]
  change (port.foldlM AuthorityScan.step ⟨1, false, false, false, false⟩ >>= _) = _
  rw [foldlM_hostChars rfl digits]
  rfl

theorem not_endsAuthority {c : Char} (host : isHostChar c = true) : endsAuthority c = false := by
  have slash : c ≠ '/' := ne_of_isHostChar host rfl
  have question : c ≠ '?' := ne_of_isHostChar host rfl
  have hash : c ≠ '#' := ne_of_isHostChar host rfl
  simp [endsAuthority, slash, question, hash]

/-- A host, a port and a path make an identifier. -/
theorem parse_hostPort {s kept : String} {host port path : List Char}
    (chars : s.toList = "http://".toList ++ ((host ++ ':' :: port) ++ '/' :: path))
    (short : s.utf8ByteSize ≤ maxLength) (plain : ∀ c ∈ host, isHostChar c = true)
    (digits : ∀ c ∈ port, isHostChar c = true) (rest : checkPath ('/' :: path) = .ok kept) :
    parse s = .ok ⟨some "http", some (String.ofList (host ++ ':' :: port)), kept⟩ := by
  have checked := checkAuthority_hostPort plain digits
  have inside : ∀ c ∈ host ++ ':' :: port, (!endsAuthority c) = true := by
    intro c member
    rw [List.mem_append, List.mem_cons] at member
    rcases member with inHost | rfl | inPort
    · rw [not_endsAuthority (plain c inHost)]
      rfl
    · rfl
    · rw [not_endsAuthority (digits c inPort)]
      rfl
  have named : host ++ ':' :: port ≠ [] := by simp
  generalize host ++ ':' :: port = authority at chars checked inside named
  have scheme : splitScheme? ("http://".toList ++ (authority ++ '/' :: path)) =
      some ("http", authority ++ '/' :: path) := rfl
  have first : (authority ++ '/' :: path).takeWhile (fun c => !endsAuthority c) = authority := by
    rw [List.takeWhile_append_of_pos inside]
    exact List.append_nil authority
  have second : (authority ++ '/' :: path).dropWhile (fun c => !endsAuthority c) = '/' :: path := by
    rw [List.dropWhile_append_of_pos inside]
    rfl
  have few : ¬ maxSchemeLength < "http".length := by decide
  rw [parse, chars, if_neg (Nat.not_lt.mpr short)]
  simp only [scheme, first, second, few, checked, named, rest, if_false, bind, Except.bind]
  rfl

end Uri

end Net

namespace Http

variable {request : Request} {uri : Net.Uri} {authority : String}

/-- A request without fields can be made for every identifier that can be reached. -/
theorem Request.route_eq (parsed : Net.Uri.parse request.url = .ok uri)
    (web : uri.isHttp = true) (its : uri.authority = some authority) :
    request.route =
      if [request.contentType, request.authorization].all (·.all isHeaderValue) then
        .ok (uri, authority)
      else .error (.request "failed to parse header value") := by
  have reachable : isReachable uri = true := by simp [isReachable, web, its]
  unfold Request.route Request.check
  rw [parsed]
  cases [request.contentType, request.authorization].all (·.all isHeaderValue) with
  | true => simp only [if_true, reachable, its]
  | false => simp only [Bool.false_eq_true, if_false]

/-- A secret may be shown after a plain word if it may stand in a header alone. -/
theorem isHeaderValue_bearer (secret : String) :
    isHeaderValue ("Bearer " ++ secret) = isHeaderValue secret := by
  have word : (Text.encode "Bearer ").all isHeaderByte = true := by decide +kernel
  rw [isHeaderValue, Text.encode_append, List.all_append, word, Bool.true_and]
  rfl

end Http

/-- The status of every PoP can be asked for, on every port. -/
theorem PopStatus.route_request (address : Net.Ipv4) {port : Nat} (bound : port < 65536) :
    (request address port).route =
      .ok (⟨some "http", some (address.text ++ ":" ++ toString port), "/statusz"⟩,
        address.text ++ ":" ++ toString port) := by
  obtain ⟨short, plain⟩ := address.plain_text
  have digits : (toString port).toList.length ≤ 5 :=
    Net.length_toString_le (by decide) (Nat.lt_trans bound (by decide))
  have chars : (url address port).toList = "http://".toList ++
      ((address.text.toList ++ ':' :: (toString port).toList) ++ '/' :: "statusz".toList) := by
    simp [url]
  have size : (url address port).utf8ByteSize ≤ Net.Uri.maxLength := by
    refine Nat.le_trans (Text.utf8ByteSize_le _) ?_
    have known : "http://".toList.length = 7 ∧ "statusz".toList.length = 7 := by decide
    rw [chars]
    simp only [List.length_append, List.length_cons, known, Net.Uri.maxLength]
    omega
  have path : Net.Uri.checkPath ('/' :: "statusz".toList) = .ok "/statusz" := by decide +kernel
  have parsed := Net.Uri.parse_hostPort chars size plain
    (fun c member => Net.isHostChar_toString member) path
  have text : String.ofList (address.text.toList ++ ':' :: (toString port).toList) =
      address.text ++ ":" ++ toString port := by
    rw [← String.toList_inj]
    simp
  rw [text] at parsed
  have lower : ("http".toLower == "http") = true := by decide +kernel
  exact Http.Request.route_eq parsed lower rfl

/-- A measurement can be asked of a prober that can be reached exactly if its secret may stand in a
header. -/
theorem Prober.route_request {prober : Prober} {uri : Net.Uri} {authority : String}
    (parsed : Net.Uri.parse prober.url = .ok uri) (web : uri.isHttp = true)
    (its : uri.authority = some authority) (endpoint : String) :
    (prober.request endpoint).route =
      if Http.isHeaderValue prober.secret then .ok (uri, authority)
      else .error (.request "failed to parse header value") := by
  have json : Http.isHeaderValue "application/json" = true := by decide +kernel
  have fields : [(prober.request endpoint).contentType, (prober.request endpoint).authorization].all
      (·.all Http.isHeaderValue) = Http.isHeaderValue prober.secret := by
    simp [request, json, Http.isHeaderValue_bearer]
  rw [Http.Request.route_eq parsed web its, fields]

end Steering
