import TransactionMonitoring.WhiteSpace

/-! The address that a request is accounted to.

Each proxy appends the address of its own peer to the right of what it was sent, so the entries on
the left of `X-Forwarded-For` are the client's to write, and only those that the trusted proxies
wrote count.  A result of `none` is an exception; that there is none rests on `ip_address` taking
back what `str` writes.
-/
namespace TransactionMonitoring.ClientIp
open WhiteSpace

/-- What the module takes from `ipaddress`. -/
structure Tools (Address Network : Type) where
  ipAddress : String → Option Address
  str : Address → String
  ipv4Mapped : Address → Option Address
  ipNetwork : String → Option Network
  contains : Network → Address → Bool
  ipAddress_str : ∀ address, ipAddress (str address) = some address

structure Settings where
  trustedProxyEnabled : Bool
  trustedProxyHops : Int
  trustedProxyCidrs : String
  trustedProxyClientIpHeader : String
deriving DecidableEq, Repr

/-- A request, as far as it is read: the host of its peer, and its headers under lowercase names. -/
structure Connection where
  client : Option String
  headers : List (String × String)
deriving DecidableEq, Repr

def Connection.getlist (connection : Connection) (name : String) : List String :=
  (connection.headers.filter fun header => header.1 = String.ofList (name.toList.map Char.toLower)).map Prod.snd

def Connection.get (connection : Connection) (name : String) : Option String := (connection.getlist name).head?

/-- The parts between commas, stripped, without the blank ones. -/
def parts (value : String) : List String :=
  ((value.toList.splitOn ',').map fun part => strip (String.ofList part)).filter fun part => part ≠ ""

section
variable {Address Network : Type} (tools : Tools Address Network) (settings : Settings)

/-- What `parse_ip` takes for the address in a text. -/
def candidate (value : String) : String :=
  let chars := (strip value).toList
  if chars.head? = some '[' ∧ ']' ∈ chars then String.ofList (chars.tail.takeWhile (· ≠ ']'))
  else if chars.count ':' = 1 then String.ofList (chars.takeWhile (· ≠ ':'))
  else strip value

/-- `parse_ip`. -/
def parseIp : Option String → Option String
  | none => none
  | some value =>
      if value = "" then none
      else (tools.ipAddress (candidate value)).map fun address =>
        tools.str ((tools.ipv4Mapped address).getD address)

/-- `trusted_proxy_networks`, which raises on a malformed network. -/
def trustedProxyNetworks : Option (List Network) := (parts settings.trustedProxyCidrs).mapM tools.ipNetwork

/-- `_peer_is_trusted_proxy`. -/
def peerIsTrustedProxy : Option String → Option Bool
  | none => some false
  | some direct =>
      match trustedProxyNetworks tools settings with
      | none => some false
      | some networks => (tools.ipAddress direct).map fun address => networks.any fun net => tools.contains net address

/-- `is_trusted_proxy_peer`. -/
def isTrustedProxyPeer (connection : Connection) : Option Bool :=
  if settings.trustedProxyEnabled then peerIsTrustedProxy tools settings (parseIp tools connection.client)
  else some false

/-- The entries of `X-Forwarded-For`, over all its lines. -/
def entries (lines : List String) : List String := lines.flatMap parts

/-- The entry that the first trusted proxy wrote, where the header has it. -/
def hopEntry (entries : List String) : Option String :=
  let index := (entries.length : Int) - settings.trustedProxyHops
  if index < 0 ∨ (entries.length : Int) ≤ index then none else entries[index.toNat]?

/-- `client_ip`. -/
def clientIp (connection : Connection) : Option (Option String) := do
  let direct := parseIp tools connection.client
  if ← isTrustedProxyPeer tools settings connection then
    let header := strip settings.trustedProxyClientIpHeader
    let edge := if header = "" then none else parseIp tools (connection.get header)
    some (edge.or ((parseIp tools (hopEntry settings (entries (connection.getlist "x-forwarded-for")))).or direct))
  else some direct

end

/-! What a proxy does to the header. -/

/-- A proxy appends its peer: on a line of its own, to the last line, or to all of them made one. -/
inductive Appends (peer : String) : List String → List String → Prop where
  | line (lines : List String) : Appends peer lines (lines ++ [peer])
  | last (before : List String) (last : String) : Appends peer (before ++ [last]) (before ++ [last ++ ", " ++ peer])
  | joined (first : String) (rest : List String) :
      Appends peer (first :: rest) [rest.foldl (fun joined line => joined ++ ", " ++ line) first ++ ", " ++ peer]

/-- A request passes proxies, whose peers these are in order. -/
inductive Through : List String → List String → List String → Prop where
  | arrived (lines : List String) : Through [] lines lines
  | hop {peer : String} {peers lines between last : List String} (appends : Appends peer lines between)
      (onward : Through peers between last) : Through (peer :: peers) lines last

/-- A text that stands in a list of entries as itself. -/
def Plain (entry : String) : Prop := ',' ∉ entry.toList ∧ strip entry = entry ∧ entry ≠ ""

instance (entry : String) : Decidable (Plain entry) :=
  inferInstanceAs (Decidable (',' ∉ entry.toList ∧ strip entry = entry ∧ entry ≠ ""))

theorem strip_space (chars : List Char) : strip (String.ofList (' ' :: chars)) = strip (String.ofList chars) := by
  rw [strip, strip, String.toList_ofList, String.toList_ofList, stripOf, stripOf, List.dropWhile_cons,
    if_pos (by decide)]

/-- A space after a comma changes no part. -/
theorem parts_space (chars : List Char) :
    (((' ' :: chars).splitOn ',').map fun part => strip (String.ofList part)) =
      (chars.splitOn ',').map fun part => strip (String.ofList part) := by
  rw [List.splitOn_eq_splitOnP, List.splitOn_eq_splitOnP, List.splitOnP_cons_eq_if_modifyHead, if_neg (by decide)]
  obtain ⟨first, rest, shape⟩ := List.exists_cons_of_ne_nil (List.splitOnP_ne_nil (· == ',') chars)
  rw [shape, List.modifyHead_cons, List.map_cons, List.map_cons, strip_space]

theorem parts_append (before after : String) : parts (before ++ ", " ++ after) = parts before ++ parts after := by
  have chars : (before ++ ", " ++ after).toList = before.toList ++ ',' :: ' ' :: after.toList := by
    simp
  rw [parts, parts, parts, chars, List.splitOn_eq_splitOnP, List.splitOnP_append_cons _ _ (by decide), List.map_append,
    List.filter_append, ← List.splitOn_eq_splitOnP, ← List.splitOn_eq_splitOnP, parts_space]

theorem parts_plain {entry : String} (plain : Plain entry) : parts entry = [entry] := by
  obtain ⟨noComma, stripped, notEmpty⟩ := plain
  have single : entry.toList.splitOn ',' = [entry.toList] := by
    rw [List.splitOn_eq_splitOnP]
    refine List.splitOnP_eq_singleton fun char member => ?_
    simp only [beq_eq_false_iff_ne]
    rintro rfl
    exact noComma member
  rw [parts, single, List.map_singleton, String.ofList_toList, stripped]
  simp [notEmpty]

theorem parts_joined (first : String) (rest : List String) :
    parts (rest.foldl (fun joined line => joined ++ ", " ++ line) first) = entries (first :: rest) := by
  induction rest generalizing first with
  | nil => simp [entries]
  | cons line rest ih =>
    rw [List.foldl_cons, ih, entries, entries, List.flatMap_cons, parts_append, List.flatMap_cons, List.flatMap_cons,
      List.append_assoc]

theorem entries_append (before after : List String) : entries (before ++ after) = entries before ++ entries after :=
  List.flatMap_append ..

/-- However it writes the header, a proxy adds one entry, on the right. -/
theorem entries_appends {peer : String} {before after : List String} (plain : Plain peer)
    (appends : Appends peer before after) : entries after = entries before ++ [peer] := by
  have single : entries [peer] = [peer] := by simp [entries, parts_plain plain]
  cases appends with
  | line => rw [entries_append, single]
  | last before last =>
    have added : entries [last ++ ", " ++ peer] = entries [last] ++ [peer] := by
      simp [entries, parts_append, parts_plain plain]
    rw [entries_append, entries_append, added, List.append_assoc]
  | joined first rest =>
    simp only [entries, List.flatMap_cons, List.flatMap_nil, List.append_nil]
    rw [parts_append, parts_joined, parts_plain plain]
    rfl

/-- The trusted proxies' entries stand at the right end, behind whatever the client sent. -/
theorem entries_through {peers sent arrived : List String} (plain : ∀ peer ∈ peers, Plain peer)
    (through : Through peers sent arrived) : entries arrived = entries sent ++ peers := by
  induction through with
  | arrived => rw [List.append_nil]
  | hop appends onward ih =>
    rw [ih fun peer member => plain peer (List.mem_cons_of_mem _ member),
      entries_appends (plain _ List.mem_cons_self) appends, List.append_assoc, List.singleton_append]

theorem hopEntry_append {settings : Settings} {sent proxies : List String} {client : String}
    (hops : settings.trustedProxyHops = (client :: proxies).length) :
    hopEntry settings (sent ++ client :: proxies) = some client := by
  have index : ((sent ++ client :: proxies).length : Int) - settings.trustedProxyHops = sent.length := by
    rw [hops, List.length_append]
    omega
  have within : ¬((sent.length : Int) < 0 ∨ ((sent ++ client :: proxies).length : Int) ≤ sent.length) := by
    rw [List.length_append, List.length_cons]
    omega
  rw [hopEntry]
  simp only [index]
  rw [if_neg within, Int.toNat_natCast, List.getElem?_append_right (Nat.le_refl _), Nat.sub_self,
    List.getElem?_cons_zero]

section
variable {Address Network : Type} {tools : Tools Address Network} {settings : Settings} {connection : Connection}

/-- The address that `parse_ip` writes is one that `ip_address` takes. -/
theorem parse_parseIp {value : Option String} {address : String} (parses : parseIp tools value = some address) :
    ∃ parsed, tools.ipAddress address = some parsed := by
  cases value with
  | none => cases parses
  | some value =>
    rw [parseIp] at parses
    split at parses
    · cases parses
    · obtain ⟨found, -, rfl⟩ := Option.map_eq_some_iff.mp parses
      exact ⟨_, tools.ipAddress_str _⟩

theorem isTrustedProxyPeer_returns : ∃ trusted, isTrustedProxyPeer tools settings connection = some trusted := by
  rw [isTrustedProxyPeer]
  split
  · cases direct : parseIp tools connection.client with
    | none => exact ⟨false, rfl⟩
    | some address =>
      obtain ⟨parsed, takes⟩ := parse_parseIp direct
      rw [peerIsTrustedProxy, takes]
      cases trustedProxyNetworks tools settings with
      | none => exact ⟨false, rfl⟩
      | some networks => exact ⟨_, rfl⟩
  · exact ⟨false, rfl⟩

/-- What a peer that is no trusted proxy writes into its headers counts for nothing. -/
theorem clientIp_untrusted (untrusted : isTrustedProxyPeer tools settings connection = some false) :
    clientIp tools settings connection = some (parseIp tools connection.client) := by
  rw [clientIp, untrusted]
  rfl

/-- Behind as many trusted proxies as are configured the client is the peer of the first of them. -/
theorem clientIp_through {client : String} {proxies sent : List String}
    (trusted : isTrustedProxyPeer tools settings connection = some true)
    (noEdge : strip settings.trustedProxyClientIpHeader = "") (plain : ∀ peer ∈ client :: proxies, Plain peer)
    (hops : settings.trustedProxyHops = (client :: proxies).length)
    (through : Through (client :: proxies) sent (connection.getlist "x-forwarded-for")) :
    clientIp tools settings connection =
      some ((parseIp tools (some client)).or (parseIp tools connection.client)) := by
  rw [clientIp, trusted, entries_through plain through, hopEntry_append hops]
  simp [noEdge]

end

end TransactionMonitoring.ClientIp
