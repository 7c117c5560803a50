/-
**The instrument behind a broker's symbol** (`broker/symbols.py`).

The broker names an instrument by a bare symbol.  Its class is read off the symbol's shape, and
the two together make the key under which this system knows the instrument.  A symbol is a text
of ASCII letters, digits and signs.

Main definitions:

* `inferAlpacaAssetClass`, `brokerSymbolAssetClass` — the class that a symbol's shape says;
* `brokerSymbolAssetKey` — the key of the instrument; a blank symbol has none;
* `normalizeAlpacaSymbol` — the one spelling of a crypto pair.
-/

import TradePulse.Models.Market

set_option autoImplicit false

namespace TradePulse

/-- `str.upper`. -/
def upper (s : List Char) : List Char := s.map Char.toUpper

/-- `str.strip`. -/
def strip (s : List Char) : List Char :=
  ((s.dropWhile Char.isWhitespace).reverse.dropWhile Char.isWhitespace).reverse

/-- `_CRYPTO_TICKER_PATTERN`. -/
def cryptoTicker (raw : List Char) : Bool :=
  ["BTC", "ETH", "SOL", "DOGE", "AVAX", "LINK", "LTC", "BCH", "UNI", "AAVE", "DOT", "SHIB"].any
    fun base => ["USD", "USDT", "USDC", "BTC"].any fun quote => raw == base.toList ++ quote.toList

/-- `infer_alpaca_asset_class`, where no class is declared. -/
def inferAlpacaAssetClass (symbol : List Char) : AssetClass :=
  let raw := upper symbol
  if raw.contains '/' || raw.contains '-' then .crypto
  else if cryptoTicker raw then .crypto
  else .equity

/-- `_OCC_OPTION_SYMBOL`: up to six letters, six digits of a date, a call or a put, and eight digits
of a strike. -/
def occOptionSymbol (raw : List Char) : Bool :=
  let root := raw.takeWhile Char.isUpper
  let date := (raw.drop root.length).take 6
  let rest := raw.drop (root.length + 6)
  decide (1 ≤ root.length) && decide (root.length ≤ 6) &&
    decide (date.length = 6) && date.all Char.isDigit &&
    (rest.head? == some 'C' || rest.head? == some 'P') &&
    decide (rest.tail.length = 8) && rest.tail.all Char.isDigit

/-- `broker_symbol_asset_class`. -/
def brokerSymbolAssetClass (symbol : List Char) : AssetClass :=
  let raw := upper (strip symbol)
  if occOptionSymbol raw then .option else inferAlpacaAssetClass raw

/-- `broker_symbol_asset_key`: the key of the instrument that the broker calls by a symbol. -/
def brokerSymbolAssetKey (symbol : String) : Except Raised String :=
  if strip symbol.toList = [] then .error (.valueError "symbol is required")
  else .ok (assetIdentityKey
    { symbol := String.ofList (upper (strip symbol.toList))
      assetClass := brokerSymbolAssetClass symbol.toList
      nativeAssetId := String.ofList (strip ("alpaca:".toList ++ upper symbol.toList)) })

/-- `_CRYPTO_QUOTE_CURRENCIES`. -/
def cryptoQuoteCurrencies : List (List Char) :=
  ["USDT".toList, "USDC".toList, "USD".toList, "BTC".toList]

/-- `normalize_alpaca_symbol`: the broker writes one pair in several ways. -/
def normalizeAlpacaSymbol (symbol : List Char) (assetClass : AssetClass) : List Char :=
  let raw := (upper (strip symbol)).map fun c => if c = '-' then '/' else c
  if assetClass ≠ .crypto ∨ raw.contains '/' then raw
  else match cryptoQuoteCurrencies.find? fun q => decide (q.length < raw.length) && q.isSuffixOf raw with
    | some q => raw.take (raw.length - q.length) ++ '/' :: q
    | none => raw

end TradePulse
