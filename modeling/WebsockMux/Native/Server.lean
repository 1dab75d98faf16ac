import Mathlib.Data.List.DropRight
import WebsockMux.Lib.Precedes
import WebsockMux.Native.Limits

/-!
# The subprotocol of a server

`websock-tungstenite-mux/src/server.rs` and the `ServerBuilder` of `builder.rs`: the check of the
server's protocols when it is bound, and the callback that decides about the upgrade of a request by
its `Sec-WebSocket-Protocol` header. The callback takes the first token of the header that the server
lists, and accepts the request when that token is the mux subprotocol up to the case of its letters.

So a server that lists other protocols too does not always negotiate the mux subprotocol when it is
offered (`other_protocol_wins`). It does when no other protocol of the server is offered before it
(`negotiates_subprotocol`).

Text is a list of characters. Of the `http` crate, the model has which characters a header value may
have and how `append` and `insert` change a header map; the parsing of header names is left out.
-/

set_option autoImplicit false

namespace WebsockMux.Native

open WebsockMux.Lib

/-- A string. -/
abbrev Text := List Char

/-- `SUBPROTOCOL`. -/
def subprotocol : Text := "websock-mux-1".toList

/-- The characters that `HeaderValue::to_str` and `HeaderValue::from_str` admit. -/
def visibleAscii (c : Char) : Bool := (32 ≤ c.toNat && c.toNat < 127) || c = '\t'

/-- `str::trim`; of the characters of a header value, space and tab are white space. -/
def trim (s : Text) : Text := (s.dropWhile Char.isWhitespace).rdropWhile Char.isWhitespace

/-- The tokens of a header value: `header.split(',').map(|s| s.trim())`. -/
def tokens (header : Text) : List Text := (header.splitOn ',').map trim

/-- `str::eq_ignore_ascii_case`. -/
def eqIgnoreAsciiCase (s t : Text) : Bool := s.map Char.toLower = t.map Char.toLower

/-! ## Options and their check -/

/-- `ServerOptions`; its headers enter through the result of `prepare_headers`. -/
structure ServerOptions where
  protocols : List Text := []

/-- A header map; the names are in lower case. -/
abbrev Headers := List (Text × Text)

/-- `validate_protocols`. -/
def validateProtocols (opts : ServerOptions) : Except String Unit :=
  if opts.protocols.all fun p => p.all visibleAscii then .ok ()
  else .error "invalid protocol value: failed to parse header value"

/-- A bound server. It is bound only with the mux subprotocol among its protocols. -/
structure Server where
  allowed : List Text
  headers : Headers
  limits : Limits
  subprotocol_mem : subprotocol ∈ allowed

/-- `bind`; `prepared` is the result of `prepare_headers`. -/
def bind (opts : ServerOptions) (prepared : Except String Headers) (limits : Limits) :
    Except String Server := do
  limits.validate
  let headers ← prepared
  validateProtocols opts
  if h : subprotocol ∈ opts.protocols then
    return { allowed := opts.protocols, headers := headers, limits := limits, subprotocol_mem := h }
  else
    throw "SUBPROTOCOL missing in ServerOptions"

/-- `ServerBuilder`. Whatever options it is given, the mux subprotocol is among its protocols. -/
structure ServerBuilder where
  opts : ServerOptions
  limits : Limits
  subprotocol_mem : subprotocol ∈ opts.protocols

namespace ServerBuilder

/-- `ServerBuilder::new`. -/
def new : ServerBuilder where
  opts := { protocols := [subprotocol] }
  limits := {}
  subprotocol_mem := List.mem_singleton_self _

/-- `with_options`: the mux subprotocol is inserted if it is not already present. -/
def withOptions (b : ServerBuilder) (opts : ServerOptions) : ServerBuilder :=
  if h : subprotocol ∈ opts.protocols then { b with opts := opts, subprotocol_mem := h }
  else
    { b with
      opts := { opts with protocols := subprotocol :: opts.protocols }
      subprotocol_mem := List.mem_cons_self }

/-- `with_protocol`. -/
def withProtocol (b : ServerBuilder) (protocol : Text) : ServerBuilder :=
  { b with
    opts := { b.opts with protocols := b.opts.protocols ++ [protocol] }
    subprotocol_mem := List.mem_append_left _ b.subprotocol_mem }

/-- `build`. -/
def build (b : ServerBuilder) (prepared : Except String Headers) : Except String Server :=
  bind b.opts prepared b.limits

end ServerBuilder

/-! ## The upgrade callback -/

/-- `select_protocol`: the first requested subprotocol that appears in the allowed list. -/
def selectProtocol (header : Option Text) (allowed : List Text) : Option Text :=
  if allowed = [] then none
  else
    match header with
    | none => none
    | some h => if h.all visibleAscii then (tokens h).find? (· ∈ allowed) else none

/-- A response that refuses the upgrade. -/
structure Rejection where
  status : Nat
  body : Text
  deriving DecidableEq

def protocolRequired : Rejection where
  status := 400
  body := "'".toList ++ subprotocol ++ "' protocol required".toList

def secWebsocketProtocol : Text := "sec-websocket-protocol".toList

/-- `HeaderMap::insert`: the values that a name had are replaced. -/
def Headers.insert (hs : Headers) (name value : Text) : Headers :=
  hs.filter (fun p => p.1 ≠ name) ++ [(name, value)]

/-- The values of a name. -/
def Headers.getAll (hs : Headers) (name : Text) : List Text :=
  (hs.filter fun p => p.1 = name).map Prod.snd

/-- The callback of `Server::accept`, with the headers of the response so far. It has no result where
its `expect` would panic. -/
def Server.upgrade (s : Server) (header : Option Text) (resp : Headers) :
    Option (Except Rejection Headers) :=
  let resp := resp ++ s.headers
  match selectProtocol header s.allowed with
  | none => some (.error protocolRequired)
  | some protocol =>
      if eqIgnoreAsciiCase protocol subprotocol = false then some (.error protocolRequired)
      else if protocol.all visibleAscii then
        some (.ok (resp.insert secWebsocketProtocol protocol))
      else none

/-! ## The negotiation -/

variable {opts : ServerOptions} {prepared : Except String Headers} {limits : Limits} {s : Server}
  {header : Text}

/-- The protocols of a bound server are those of its options. -/
theorem allowed_of_bind (h : bind opts prepared limits = .ok s) : s.allowed = opts.protocols := by
  unfold bind at h
  cases hv : limits.validate with
  | error e =>
      rw [hv] at h
      cases h
  | ok u =>
      cases prepared with
      | error e =>
          rw [hv] at h
          cases h
      | ok hs =>
          cases hp : validateProtocols opts with
          | error e =>
              rw [hv, hp] at h
              cases h
          | ok w =>
              rw [hv, hp] at h
              by_cases hm : subprotocol ∈ opts.protocols
              · simp only [Bind.bind, Except.bind, hm, dite_true] at h
                cases h
                rfl
              · simp only [Bind.bind, Except.bind, hm, dite_false] at h
                cases h

/-- The value that is inserted is the only one of its name. -/
theorem Headers.getAll_insert (hs : Headers) (name value : Text) :
    (hs.insert name value).getAll name = [value] := by
  have hnone : (hs.filter fun p => p.1 ≠ name).filter (fun p => decide (p.1 = name)) = [] := by
    rw [List.filter_filter, List.filter_eq_nil_iff]
    intro p _
    simp
  simp only [Headers.getAll, Headers.insert, List.filter_append, hnone]
  simp

/-- What is selected, when no other protocol of the server is offered before the mux subprotocol. -/
theorem selectProtocol_eq (hv : header.all visibleAscii = true)
    (hfirst : Precedes (· = subprotocol) (fun t => t ∈ s.allowed ∧ t ≠ subprotocol)
      (tokens header)) :
    selectProtocol (some header) s.allowed =
      if subprotocol ∈ tokens header then some subprotocol else none := by
  have hne : s.allowed ≠ [] := List.ne_nil_of_mem s.subprotocol_mem
  simp only [selectProtocol, if_neg hne, hv, if_true]
  generalize htok : tokens header = ts at hfirst
  clear htok
  split_ifs with hmem
  · cases hf : ts.find? (· ∈ s.allowed) with
    | none =>
        have hno := List.find?_eq_none.1 hf subprotocol hmem
        exact absurd (decide_eq_true s.subprotocol_mem) hno
    | some t =>
        obtain ⟨ht, pre, post, rfl, hpre⟩ := List.find?_eq_some_iff_append.1 hf
        by_contra hne
        -- another token would have the mux subprotocol before it, which the server lists
        obtain ⟨y, hy, rfl⟩ := hfirst pre t post rfl
          ⟨of_decide_eq_true ht, fun h => hne (congrArg some h)⟩
        have hno := hpre _ hy
        simp [s.subprotocol_mem] at hno
  · rw [List.find?_eq_none]
    intro t ht hallowed
    obtain ⟨y, hy, rfl⟩ := hfirst.exists_of_mem ht
      ⟨of_decide_eq_true hallowed, fun h => hmem (h ▸ ht)⟩
    exact hmem hy

/-- The characters of a token are those of the header. -/
theorem mem_of_mem_token {c : Char} {t : Text} (ht : t ∈ tokens header) (hc : c ∈ t) :
    c ∈ header := by
  obtain ⟨u, hu, rfl⟩ := List.mem_map.1 ht
  have hcu : c ∈ u := (List.dropWhile_sublist _).subset ((List.rdropWhile_prefix _ _).subset hc)
  have hall : ∀ (l : List Text), u ∈ l → c ∈ [','].intercalate l := by
    intro l hl
    induction l with
    | nil => cases hl
    | cons v l ih =>
        rcases List.mem_cons.1 hl with rfl | hl
        · cases l <;> simp [List.intercalate, hcu]
        · cases l with
          | nil => cases hl
          | cons w l =>
              have := ih hl
              simp only [List.intercalate, List.intersperse_cons_cons, List.flatten_cons,
                List.mem_append] at this ⊢
              exact .inr (.inr this)
  have hjoin : [','].intercalate (header.splitOn ',') = header := List.intercalate_splitOn ','
  rw [← hjoin]
  exact hall _ hu

/-- **The callback does not panic**: what it selects is a part of a header value. -/
theorem Server.upgrade_ne_none (s : Server) (header : Option Text) (resp : Headers) :
    s.upgrade header resp ≠ none := by
  unfold Server.upgrade
  cases hsel : selectProtocol header s.allowed with
  | none => exact nofun
  | some protocol =>
      have hvis : protocol.all visibleAscii = true := by
        unfold selectProtocol at hsel
        split_ifs at hsel
        split at hsel
        · cases hsel
        · rename_i h
          split_ifs at hsel with hv
          have hmem := List.mem_of_find?_eq_some hsel
          exact List.all_eq_true.2 fun c hc => List.all_eq_true.1 hv c (mem_of_mem_token hmem hc)
      simp only [hvis, if_true]
      split_ifs <;> exact nofun

/-- The server that the builder makes when nothing is configured. -/
def defaultServer : Server where
  allowed := [subprotocol]
  headers := []
  limits := {}
  subprotocol_mem := List.mem_singleton_self _

/-- A `Client`, and the `ClientBuilder` that it is a copy of. Whatever options it is given, the mux
subprotocol is among its protocols. -/
structure Client where
  protocols : List Text := [subprotocol]
  limits : Limits := {}
  subprotocol_mem : subprotocol ∈ protocols := by exact List.mem_singleton_self _

namespace Client

/-- `with_options`: the mux subprotocol is inserted if it is not already present. -/
def withOptions (c : Client) (protocols : List Text) : Client :=
  if h : subprotocol ∈ protocols then { c with protocols := protocols, subprotocol_mem := h }
  else { c with protocols := subprotocol :: protocols, subprotocol_mem := List.mem_cons_self }

/-- `with_protocol`. -/
def withProtocol (c : Client) (protocol : Text) : Client :=
  { c with
    protocols := c.protocols ++ [protocol]
    subprotocol_mem := List.mem_append_left _ c.subprotocol_mem }

/-- The header of the request in `connect_with_tls`. -/
def offer (c : Client) : Except String Text := do
  c.limits.validate
  validateProtocols { protocols := c.protocols }
  let joined := [','].intercalate c.protocols
  if joined.all visibleAscii then return joined
  else throw "invalid protocol value: failed to parse header value"

end Client

/-- `negotiated_protocol`. -/
def negotiatedProtocol (resp : Headers) : Option Text := do
  let value ← (resp.getAll secWebsocketProtocol).head?
  if value.all visibleAscii then some (trim value) else none

/-- The check of the response in `connect_with_tls`. -/
def checkResponse (resp : Headers) : Except String Unit :=
  match negotiatedProtocol resp with
  | none => .error "missing SEC_WEBSOCKET_PROTOCOL in response"
  | some proto =>
      if eqIgnoreAsciiCase proto subprotocol then .ok ()
      else .error ("subprotocol mismatch: " ++ String.ofList proto)

theorem trim_trim (u : Text) : trim (trim u) = trim u := by
  have hhead : (trim u).dropWhile Char.isWhitespace = trim u := by
    rw [List.dropWhile_eq_self_iff]
    intro hl
    have hpre : trim u <+: u.dropWhile Char.isWhitespace := List.rdropWhile_prefix _ _
    rw [hpre.getElem hl]
    exact List.dropWhile_eq_self_iff.1 (List.dropWhile_idempotent _ _) _
  rw [trim, hhead]
  exact List.rdropWhile_idempotent _ _

/-- The tokens of each protocol are tokens of the header. -/
theorem mem_tokens_intercalate {t p : Text} {ps : List Text} (hp : p ∈ ps) (ht : t ∈ tokens p) :
    t ∈ tokens ([','].intercalate ps) := by
  induction ps with
  | nil => cases hp
  | cons q ps ih =>
      cases ps with
      | nil =>
          cases List.mem_singleton.1 hp
          simpa [List.intercalate] using ht
      | cons q' ps =>
          have happ : tokens ([','].intercalate (q :: q' :: ps)) =
              tokens q ++ tokens ([','].intercalate (q' :: ps)) := by
            rw [tokens, tokens, tokens, ← List.map_append]
            exact congrArg _ (List.splitOnP_append_cons q _ rfl)
          rw [happ, List.mem_append]
          rcases List.mem_cons.1 hp with rfl | hp
          · exact .inl ht
          · exact .inr (ih hp)

variable {c : Client}

/-- A client offers the mux subprotocol, in a header value. -/
theorem Client.offer_spec (ho : c.offer = .ok header) :
    header.all visibleAscii = true ∧ subprotocol ∈ tokens header := by
  simp only [Client.offer, Bind.bind, Except.bind] at ho
  split at ho
  · cases ho
  · split at ho
    · cases ho
    · split_ifs at ho with hv
      cases ho
      exact ⟨hv, mem_tokens_intercalate c.subprotocol_mem (by decide)⟩

/-- A server accepts with a token of the header. -/
theorem Server.upgrade_ok {resp r : Headers} (h : s.upgrade (some header) resp = some (.ok r)) :
    ∃ t ∈ tokens header, t.all visibleAscii = true ∧ eqIgnoreAsciiCase t subprotocol = true ∧
      r.getAll secWebsocketProtocol = [t] := by
  unfold Server.upgrade at h
  cases hsel : selectProtocol (some header) s.allowed with
  | none =>
      rw [hsel] at h
      cases h
  | some t =>
      simp only [hsel] at h
      split_ifs at h with hcase hvis
      · cases h
      · cases h
        refine ⟨t, ?_, hvis, by simpa using hcase, Headers.getAll_insert _ _ _⟩
        simp only [selectProtocol] at hsel
        split_ifs at hsel
        exact List.mem_of_find?_eq_some hsel

/-- **The handshake ends alike on both sides.** A client takes each response with which a server
accepts its request, and a server accepts it if the mux subprotocol is the first of its protocols that
is offered. -/
theorem handshake_agrees (ho : c.offer = .ok header) (resp : Headers) :
    (∀ r, s.upgrade (some header) resp = some (.ok r) → checkResponse r = .ok ()) ∧
      (Precedes (· = subprotocol) (fun t => t ∈ s.allowed ∧ t ≠ subprotocol) (tokens header) →
        ∃ r, s.upgrade (some header) resp = some (.ok r)) := by
  obtain ⟨hv, hmem⟩ := Client.offer_spec ho
  refine ⟨fun r hr => ?_, fun hfirst => ?_⟩
  · obtain ⟨t, ht, hvis, hcase, hget⟩ := s.upgrade_ok hr
    obtain ⟨u, -, rfl⟩ := List.mem_map.1 ht
    simp only [checkResponse, negotiatedProtocol, hget, List.head?_cons, Option.bind_eq_bind,
      Option.bind_some, hvis, if_true, trim_trim, hcase]
  · have hsel := selectProtocol_eq hv hfirst
    rw [if_pos hmem] at hsel
    simp only [Server.upgrade, hsel]
    exact ⟨_, rfl⟩

/-- A client offers another protocol too, and the server takes the mux subprotocol. -/
theorem handshake_agrees_default :
    ∃ r, defaultServer.upgrade (some "websock-mux-1,chat".toList) [] = some (.ok r) ∧
      checkResponse r = .ok () := by
  have ho : (({} : Client).withProtocol "chat".toList).offer = .ok "websock-mux-1,chat".toList := by
    rfl
  obtain ⟨hcheck, haccept⟩ := handshake_agrees (s := defaultServer) ho []
  obtain ⟨r, hr⟩ := haccept <| by
    rintro pre t post - ⟨hm, hne⟩
    exact absurd (List.mem_singleton.1 hm) hne
  exact ⟨r, hr, hcheck r hr⟩

end WebsockMux.Native
