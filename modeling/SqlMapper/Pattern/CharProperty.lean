/-!
# Properties of characters in patterns

A pattern may ask for a property by name, or by name and value. Names are compared without case,
blanks, underscores, hyphens and a leading "is"; the tables hold them in that form.
`CharProperty.set?` gives the characters that are asked for, if there is such a property.
-/

namespace SqlMapper.Pattern

/-- Characters under all their names. A set is compiled to an automaton that reads the bytes of a
character, the last one first, and shares the bytes in which characters begin. The sizes are those
of the automaton of the set and of its complement, in bytes beyond its two end states, as they
follow from the ranges of the set. -/
structure NamedSet where
  names : List String
  size : Nat
  complement : Nat
  deriving DecidableEq, Repr

def findSet? (sets : List NamedSet) (name : String) : Option NamedSet :=
  sets.find? fun s => s.names.contains name

/-- The properties that hold or do not hold of a character. -/
def binarySets : List NamedSet :=
  [⟨["ahex", "asciihexdigit"], 24, 1008⟩, ⟨["alpha", "alphabetic"], 45404, 43316⟩,
    ⟨["bidic", "bidicontrol"], 272, 1516⟩, ⟨["bidim", "bidimirrored"], 5496, 8304⟩,
    ⟨["ci", "caseignorable"], 23664, 33964⟩, ⟨["cased"], 10136, 12188⟩,
    ⟨["cwcf", "changeswhencasefolded"], 24824, 28192⟩,
    ⟨["cwcm", "changeswhencasemapped"], 8232, 10236⟩,
    ⟨["cwl", "changeswhenlowercased"], 24260, 27692⟩,
    ⟨["cwt", "changeswhentitlecased"], 25040, 28544⟩,
    ⟨["cwu", "changeswhenuppercased"], 25204, 28616⟩, ⟨["dash"], 1500, 3788⟩,
    ⟨["di", "defaultignorablecodepoint"], 1412, 4136⟩, ⟨["dep", "deprecated"], 672, 2604⟩,
    ⟨["dia", "diacritic"], 12340, 22048⟩, ⟨["emoji"], 7660, 10268⟩,
    ⟨["ecomp", "emojicomponent"], 844, 2800⟩, ⟨["emod", "emojimodifier"], 132, 1236⟩,
    ⟨["ebase", "emojimodifierbase"], 2080, 4404⟩, ⟨["epres", "emojipresentation"], 4792, 6864⟩,
    ⟨["extpict", "extendedpictographic"], 5008, 6924⟩, ⟨["ext", "extender"], 2436, 6652⟩,
    ⟨["grbase", "graphemebase"], 53892, 49048⟩, ⟨["grext", "graphemeextend"], 19468, 29020⟩,
    ⟨["grlink", "graphemelink"], 3904, 9516⟩, ⟨["hex", "hexdigit"], 312, 1420⟩,
    ⟨["hyphen"], 776, 2680⟩, ⟨["idsb", "idsbinaryoperator"], 136, 1240⟩,
    ⟨["idst", "idstrinaryoperator"], 100, 1204⟩, ⟨["idc", "idcontinue"], 47888, 44456⟩,
    ⟨["ids", "idstart"], 41520, 41888⟩, ⟨["ideo", "ideographic"], 3680, 3832⟩,
    ⟨["joinc", "joincontrol"], 100, 1204⟩, ⟨["loe", "logicalorderexception"], 476, 1924⟩,
    ⟨["lower", "lowercase"], 27920, 31660⟩, ⟨["math"], 7068, 9012⟩,
    ⟨["nchar", "noncharactercodepoint"], 1928, 5292⟩, ⟨["oalpha", "otheralphabetic"], 13412, 19516⟩,
    ⟨["odi", "otherdefaultignorablecodepoint"], 976, 2940⟩,
    ⟨["ogrext", "othergraphemeextend"], 1960, 5104⟩, ⟨["oidc", "otheridcontinue"], 604, 2368⟩,
    ⟨["oids", "otheridstart"], 336, 1752⟩, ⟨["olower", "otherlowercase"], 1912, 4696⟩,
    ⟨["omath", "othermath"], 6636, 8764⟩, ⟨["oupper", "otheruppercase"], 576, 1984⟩,
    ⟨["patsyn", "patternsyntax"], 1728, 3180⟩, ⟨["patws", "patternwhitespace"], 276, 1416⟩,
    ⟨["pcm", "prependedconcatenationmark"], 572, 2064⟩, ⟨["qmark", "quotationmark"], 788, 2448⟩,
    ⟨["radical"], 340, 1304⟩, ⟨["ri", "regionalindicator"], 132, 1236⟩,
    ⟨["sterm", "sentenceterminal"], 5284, 12312⟩, ⟨["sd", "softdotted"], 2184, 5172⟩,
    ⟨["term", "terminalpunctuation"], 6836, 15044⟩, ⟨["uideo", "unifiedideograph"], 2540, 2692⟩,
    ⟨["upper", "uppercase"], 26700, 30340⟩, ⟨["vs", "variationselector"], 436, 1912⟩,
    ⟨["wspace", "whitespace", "space"], 616, 1860⟩, ⟨["xidc", "xidcontinue"], 48212, 44740⟩,
    ⟨["xids", "xidstart"], 41972, 42236⟩, ⟨["idcompatmathcontinue"], 1032, 2728⟩,
    ⟨["idcompatmathstart"], 756, 2344⟩, ⟨["idsu", "idsunaryoperator"], 100, 1168⟩,
    ⟨["mcm", "modifiercombiningmark"], 452, 1632⟩]

/-- The general categories, and the classes of all, assigned and ASCII characters. Surrogates are no
characters. -/
def categorySets : List NamedSet :=
  [⟨["any"], 900, 0⟩, ⟨["assigned"], 49004, 41160⟩, ⟨["ascii"], 8, 864⟩,
    ⟨["c", "other"], 41812, 49044⟩, ⟨["cc", "control", "cntrl"], 140, 968⟩,
    ⟨["cf", "format"], 1720, 4712⟩, ⟨["cn", "unassigned"], 41160, 49004⟩,
    ⟨["co", "privateuse"], 800, 1132⟩, ⟨["l", "letter"], 41512, 41892⟩,
    ⟨["lc", "casedletter"], 9436, 11020⟩, ⟨["ll", "lowercaseletter"], 27292, 30796⟩,
    ⟨["lm", "modifierletter"], 4712, 10280⟩, ⟨["lo", "otherletter"], 32764, 35576⟩,
    ⟨["lt", "titlecaseletter"], 488, 1632⟩, ⟨["lu", "uppercaseletter"], 26220, 29692⟩,
    ⟨["m", "mark", "combiningmark"], 18108, 26276⟩, ⟨["mc", "spacingmark"], 9924, 15440⟩,
    ⟨["me", "enclosingmark"], 404, 2024⟩, ⟨["mn", "nonspacingmark"], 18852, 28204⟩,
    ⟨["n", "number"], 9208, 19272⟩, ⟨["nd", "decimalnumber", "digit"], 4576, 11592⟩,
    ⟨["nl", "letternumber"], 1048, 3112⟩, ⟨["no", "othernumber"], 5036, 10976⟩,
    ⟨["p", "punctuation", "punct"], 11408, 22032⟩, ⟨["pc", "connectorpunctuation"], 476, 1820⟩,
    ⟨["pd", "dashpunctuation"], 1260, 3372⟩, ⟨["pe", "closepunctuation"], 3440, 5904⟩,
    ⟨["pf", "finalpunctuation"], 488, 1732⟩, ⟨["pi", "initialpunctuation"], 524, 1768⟩,
    ⟨["po", "otherpunctuation"], 10804, 20816⟩, ⟨["ps", "openpunctuation"], 3580, 5976⟩,
    ⟨["s", "symbol"], 15320, 20944⟩, ⟨["sc", "currencysymbol"], 1656, 4688⟩,
    ⟨["sk", "modifiersymbol"], 1956, 4436⟩, ⟨["sm", "mathsymbol"], 3796, 6608⟩,
    ⟨["so", "othersymbol"], 12780, 16708⟩, ⟨["z", "separator"], 544, 1788⟩,
    ⟨["zl", "lineseparator"], 100, 1204⟩, ⟨["zp", "paragraphseparator"], 100, 1204⟩,
    ⟨["zs", "spaceseparator"], 508, 1752⟩]

def scriptSets : List NamedSet :=
  [⟨["adlm", "adlam"], 272, 1308⟩, ⟨["aghb", "caucasianalbanian"], 236, 1240⟩,
    ⟨["ahom"], 272, 1340⟩, ⟨["arab", "arabic"], 3512, 4744⟩,
    ⟨["armi", "imperialaramaic"], 168, 1172⟩, ⟨["armn", "armenian"], 376, 1480⟩,
    ⟨["avst", "avestan"], 168, 1136⟩, ⟨["bali", "balinese"], 204, 1172⟩,
    ⟨["bamu", "bamum"], 368, 1640⟩, ⟨["bass", "bassavah"], 168, 1308⟩,
    ⟨["batk", "batak"], 136, 1136⟩, ⟨["beng", "bengali"], 636, 1536⟩,
    ⟨["bhks", "bhaiksuki"], 308, 1376⟩, ⟨["bopo", "bopomofo"], 236, 1580⟩,
    ⟨["brah", "brahmi"], 272, 1204⟩, ⟨["brai", "braille"], 100, 1168⟩,
    ⟨["bugi", "buginese"], 136, 1172⟩, ⟨["buhd", "buhid"], 100, 1136⟩,
    ⟨["cakm", "chakma"], 236, 1304⟩, ⟨["cans", "canadianaboriginal"], 368, 1608⟩,
    ⟨["cari", "carian"], 200, 1204⟩, ⟨["cham"], 240, 1376⟩, ⟨["cher", "cherokee"], 372, 1576⟩,
    ⟨["chrs", "chorasmian"], 200, 1136⟩, ⟨["copt", "coptic", "qaac"], 272, 1408⟩,
    ⟨["cpmn", "cyprominoan"], 200, 1236⟩, ⟨["cprt", "cypriot"], 312, 1280⟩,
    ⟨["cyrl", "cyrillic"], 1180, 2900⟩, ⟨["deva", "devanagari"], 472, 1744⟩,
    ⟨["diak", "divesakuru"], 452, 1520⟩, ⟨["dogr", "dogra"], 132, 1236⟩,
    ⟨["dsrt", "deseret"], 200, 1136⟩, ⟨["dupl", "duployan"], 376, 1412⟩,
    ⟨["egyp", "egyptianhieroglyphs"], 200, 1168⟩, ⟨["elba", "elbasan"], 132, 1136⟩,
    ⟨["elym", "elymaic"], 132, 1104⟩, ⟨["ethi", "ethiopic"], 1952, 3492⟩,
    ⟨["geor", "georgian"], 588, 1792⟩, ⟨["glag", "glagolitic"], 444, 1648⟩,
    ⟨["gong", "gunjalagondi"], 380, 1484⟩, ⟨["gonm", "masaramgondi"], 416, 1484⟩,
    ⟨["goth", "gothic"], 200, 1204⟩, ⟨["gran", "grantha"], 704, 1772⟩,
    ⟨["grek", "greek"], 2244, 3896⟩, ⟨["gujr", "gujarati"], 636, 1536⟩,
    ⟨["guru", "gurmukhi"], 708, 1644⟩, ⟨["hang", "hangul"], 1392, 2608⟩,
    ⟨["hani", "han"], 3480, 3500⟩, ⟨["hano", "hanunoo"], 100, 1172⟩,
    ⟨["hatr", "hatran"], 204, 1208⟩, ⟨["hebr", "hebrew"], 520, 1660⟩,
    ⟨["hira", "hiragana"], 676, 2152⟩, ⟨["hluw", "anatolianhieroglyphs"], 200, 1236⟩,
    ⟨["hmng", "pahawhhmong"], 412, 1412⟩, ⟨["hmnp", "nyiakengpuachuehmong"], 272, 1376⟩,
    ⟨["hung", "oldhungarian"], 236, 1204⟩, ⟨["ital", "olditalic"], 168, 1172⟩,
    ⟨["java", "javanese"], 240, 1308⟩, ⟨["kali", "kayahli"], 136, 1272⟩,
    ⟨["kana", "katakana"], 1156, 2876⟩, ⟨["kawi"], 272, 1340⟩, ⟨["khar", "kharoshthi"], 452, 1420⟩,
    ⟨["khmr", "khmer"], 308, 1344⟩, ⟨["khoj", "khojki"], 236, 1304⟩,
    ⟨["kits", "khitansmallscript"], 300, 1604⟩, ⟨["knda", "kannada"], 664, 1500⟩,
    ⟨["kthi", "kaithi"], 236, 1272⟩, ⟨["lana", "taitham"], 380, 1380⟩, ⟨["laoo", "lao"], 492, 1464⟩,
    ⟨["latn", "latin"], 2784, 4840⟩, ⟨["lepc", "lepcha"], 240, 1240⟩,
    ⟨["limb", "limbu"], 276, 1312⟩, ⟨["lina", "lineara"], 304, 1240⟩,
    ⟨["linb", "linearb"], 516, 1348⟩, ⟨["lisu"], 232, 1608⟩, ⟨["lyci", "lycian"], 132, 1136⟩,
    ⟨["lydi", "lydian"], 168, 1172⟩, ⟨["mahj", "mahajani"], 132, 1272⟩,
    ⟨["maka", "makasar"], 132, 1272⟩, ⟨["mand", "mandaic"], 136, 1072⟩,
    ⟨["mani", "manichaean"], 168, 1172⟩, ⟨["marc", "marchen"], 272, 1376⟩,
    ⟨["medf", "medefaidrin"], 200, 1236⟩, ⟨["mend", "mendekikakui"], 236, 1272⟩,
    ⟨["merc", "meroiticcursive"], 272, 1240⟩, ⟨["mero", "meroitichieroglyphs"], 132, 1136⟩,
    ⟨["mlym", "malayalam"], 384, 1248⟩, ⟨["modi"], 236, 1272⟩, ⟨["mong", "mongolian"], 476, 1716⟩,
    ⟨["mroo", "mro"], 204, 1308⟩, ⟨["mtei", "meeteimayek"], 204, 1444⟩,
    ⟨["mult", "multani"], 276, 1380⟩, ⟨["mymr", "myanmar"], 336, 1576⟩,
    ⟨["nagm", "nagmundari"], 132, 1272⟩, ⟨["nand", "nandinagari"], 272, 1376⟩,
    ⟨["narb", "oldnortharabian"], 132, 1136⟩, ⟨["nbat", "nabataean"], 168, 1172⟩,
    ⟨["newa"], 236, 1272⟩, ⟨["nkoo", "nko"], 104, 968⟩, ⟨["nshu", "nushu"], 368, 1608⟩,
    ⟨["ogam", "ogham"], 100, 1136⟩, ⟨["olck", "olchiki"], 100, 1136⟩,
    ⟨["orkh", "oldturkic"], 200, 1136⟩, ⟨["orya", "oriya"], 636, 1572⟩,
    ⟨["osge", "osage"], 268, 1240⟩, ⟨["osma", "osmanya"], 168, 1172⟩,
    ⟨["ougr", "olduyghur"], 200, 1204⟩, ⟨["palm", "palmyrene"], 132, 1136⟩,
    ⟨["pauc", "paucinhau"], 132, 1236⟩, ⟨["perm", "oldpermic"], 132, 1172⟩,
    ⟨["phag", "phagspa"], 100, 1236⟩, ⟨["phli", "inscriptionalpahlavi"], 168, 1172⟩,
    ⟨["phlp", "psalterpahlavi"], 204, 1208⟩, ⟨["phnx", "phoenician"], 168, 1172⟩,
    ⟨["plrd", "miao"], 340, 1340⟩, ⟨["prti", "inscriptionalparthian"], 168, 1172⟩,
    ⟨["rjng", "rejang"], 204, 1340⟩, ⟨["rohg", "hanifirohingya"], 168, 1172⟩,
    ⟨["runr", "runic"], 204, 1240⟩, ⟨["samr", "samaritan"], 136, 1004⟩,
    ⟨["sarb", "oldsoutharabian"], 132, 1136⟩, ⟨["saur", "saurashtra"], 204, 1272⟩,
    ⟨["sgnw", "signwriting"], 272, 1308⟩, ⟨["shaw", "shavian"], 132, 1136⟩,
    ⟨["shrd", "sharada"], 200, 1236⟩, ⟨["sidd", "siddham"], 236, 1304⟩,
    ⟨["sind", "khudawadi"], 236, 1340⟩, ⟨["sinh", "sinhala"], 660, 1936⟩,
    ⟨["sogd", "sogdian"], 200, 1204⟩, ⟨["sogo", "oldsogdian"], 132, 1136⟩,
    ⟨["sora", "sorasompeng"], 168, 1308⟩, ⟨["soyo", "soyombo"], 200, 1304⟩,
    ⟨["sund", "sundanese"], 168, 1204⟩, ⟨["sylo", "sylotinagri"], 100, 1236⟩,
    ⟨["syrc", "syriac"], 308, 1312⟩, ⟨["tagb", "tagbanwa"], 172, 1244⟩,
    ⟨["takr", "takri"], 200, 1304⟩, ⟨["tale", "taile"], 136, 1208⟩,
    ⟨["talu", "newtailue"], 276, 1276⟩, ⟨["taml", "tamil"], 876, 1912⟩,
    ⟨["tang", "tangut"], 536, 1572⟩, ⟨["tavt", "taiviet"], 204, 1272⟩,
    ⟨["telu", "telugu"], 600, 1464⟩, ⟨["tfng", "tifinagh"], 240, 1340⟩,
    ⟨["tglg", "tagalog"], 136, 1172⟩, ⟨["thaa", "thaana"], 68, 1036⟩, ⟨["thai"], 168, 1140⟩,
    ⟨["tibt", "tibetan"], 520, 1248⟩, ⟨["tirh", "tirhuta"], 236, 1272⟩,
    ⟨["tnsa", "tangsa"], 268, 1372⟩, ⟨["toto"], 132, 1272⟩, ⟨["ugar", "ugaritic"], 168, 1172⟩,
    ⟨["vaii", "vai"], 168, 1236⟩, ⟨["vith", "vithkuqi"], 452, 1456⟩,
    ⟨["wara", "warangciti"], 236, 1304⟩, ⟨["wcho", "wancho"], 168, 1236⟩,
    ⟨["xpeo", "oldpersian"], 236, 1240⟩, ⟨["xsux", "cuneiform"], 508, 1408⟩,
    ⟨["yezi", "yezidi"], 204, 1208⟩, ⟨["yiii", "yi"], 272, 1236⟩,
    ⟨["zanb", "zanabazarsquare"], 200, 1236⟩, ⟨["zinh", "inherited", "qaai"], 2344, 5336⟩,
    ⟨["zyyy", "common"], 12240, 15416⟩, ⟨["gara", "garay"], 272, 1240⟩,
    ⟨["gukh", "gurungkhema"], 132, 1236⟩, ⟨["krai", "kiratrai"], 132, 1236⟩,
    ⟨["onao", "olonal"], 168, 1272⟩, ⟨["sunu", "sunuwar"], 168, 1272⟩,
    ⟨["todr", "todhri"], 132, 1136⟩, ⟨["tutg", "tulutigalari"], 560, 1628⟩]

/-- The versions of the standard, each with the characters that were there by then. -/
def ageSets : List NamedSet :=
  [⟨["1.1", "v11"], 16976, 16232⟩, ⟨["2.0", "v20"], 19660, 20172⟩, ⟨["2.1", "v21"], 19660, 20172⟩,
    ⟨["3.0", "v30"], 23416, 22924⟩, ⟨["3.1", "v31"], 26212, 25428⟩, ⟨["3.2", "v32"], 26232, 24840⟩,
    ⟨["4.0", "v40"], 26972, 25844⟩, ⟨["4.1", "v41"], 28696, 26864⟩, ⟨["5.0", "v50"], 29580, 27588⟩,
    ⟨["5.1", "v51"], 30864, 28336⟩, ⟨["5.2", "v52"], 33364, 30452⟩, ⟨["6.0", "v60"], 35340, 32176⟩,
    ⟨["6.1", "v61"], 37232, 34012⟩, ⟨["6.2", "v62"], 37232, 34012⟩, ⟨["6.3", "v63"], 37232, 34012⟩,
    ⟨["7.0", "v70"], 41740, 37448⟩, ⟨["8.0", "v80"], 42584, 38208⟩, ⟨["9.0", "v90"], 44344, 39428⟩,
    ⟨["10.0", "v100"], 45516, 39844⟩, ⟨["11.0", "v110"], 46612, 41168⟩,
    ⟨["12.0", "v120"], 47476, 41948⟩, ⟨["12.1", "v121"], 47340, 41688⟩,
    ⟨["13.0", "v130"], 48372, 42240⟩, ⟨["14.0", "v140"], 49096, 43260⟩,
    ⟨["15.0", "v150"], 50128, 43904⟩, ⟨["15.1", "v151"], 50300, 43808⟩,
    ⟨["16.0", "v160"], 51352, 44788⟩]

def graphemeBreakSets : List NamedSet :=
  [⟨["cn", "control"], 1492, 3856⟩, ⟨["cr"], 8, 936⟩, ⟨["ex", "extend"], 19568, 29256⟩,
    ⟨["l"], 268, 1508⟩, ⟨["lf"], 8, 936⟩, ⟨["lv"], 20124, 26428⟩, ⟨["lvt"], 25588, 21096⟩,
    ⟨["pp", "prepend"], 1116, 3336⟩, ⟨["ri", "regionalindicator"], 132, 1236⟩,
    ⟨["sm", "spacingmark"], 9248, 14764⟩, ⟨["t"], 268, 1240⟩, ⟨["v"], 336, 1340⟩,
    ⟨["zwj"], 100, 1204⟩]

def wordBreakSets : List NamedSet :=
  [⟨["cr"], 8, 936⟩, ⟨["dq", "doublequote"], 8, 936⟩, ⟨["ex", "extendnumlet"], 512, 1856⟩,
    ⟨["extend"], 18512, 26888⟩, ⟨["fo", "format"], 1616, 4712⟩, ⟨["hl", "hebrewletter"], 488, 1664⟩,
    ⟨["ka", "katakana"], 1224, 2980⟩, ⟨["le", "aletter"], 35168, 37664⟩, ⟨["lf"], 8, 936⟩,
    ⟨["mb", "midnumlet"], 376, 1756⟩, ⟨["ml", "midletter"], 644, 2408⟩,
    ⟨["mn", "midnum"], 856, 2724⟩, ⟨["nl", "newline"], 204, 1344⟩, ⟨["nu", "numeric"], 4612, 11628⟩,
    ⟨["ri", "regionalindicator"], 132, 1236⟩, ⟨["sq", "singlequote"], 8, 936⟩,
    ⟨["wsegspace"], 440, 1648⟩, ⟨["zwj"], 100, 1204⟩]

def sentenceBreakSets : List NamedSet :=
  [⟨["at", "aterm"], 304, 1684⟩, ⟨["cl", "close"], 2520, 5120⟩, ⟨["cr"], 8, 936⟩,
    ⟨["ex", "extend"], 18412, 26652⟩, ⟨["fo", "format"], 1652, 4748⟩,
    ⟨["le", "oletter"], 34504, 37832⟩, ⟨["lf"], 8, 936⟩, ⟨["lo", "lower"], 27816, 31592⟩,
    ⟨["nu", "numeric"], 4612, 11628⟩, ⟨["sc", "scontinue"], 1132, 3004⟩, ⟨["se", "sep"], 168, 1308⟩,
    ⟨["sp"], 580, 1824⟩, ⟨["st", "sterm"], 5176, 12236⟩, ⟨["up", "upper"], 26704, 30276⟩]

/-- A property as it is asked for. -/
inductive CharProperty
  | named (name : String)
  | valued (name value : String)
  deriving DecidableEq, Repr

def isSeparator (c : Char) : Bool := c = ' ' || c = '_' || c = '-'

/-- The form in which names are compared. Characters outside ASCII do not count. The abbreviation
"isc" is no "c" with something in front. -/
def looseName (name : String) : String :=
  let simplify (cs : List Char) :=
    String.ofList ((cs.filter fun c => c.toNat < 128 && !isSeparator c).map Char.toLower)
  match name.toList with
  | i :: s :: rest =>
      if i.toLower = 'i' ∧ s.toLower = 's' then
        let rest := simplify rest
        if rest = "c" then "isc" else rest
      else simplify (i :: s :: rest)
  | cs => simplify cs

/-- The values of the properties that have a value for each character, under the names of the
property. The extension of a script has the sizes of the script. -/
def valueSets? (name : String) : Option (List NamedSet) :=
  if name ∈ ["gc", "generalcategory"] then some categorySets
  else if name ∈ ["sc", "script", "scx", "scriptextensions"] then some scriptSets
  else if name = "age" then some ageSets
  else if name ∈ ["gcb", "graphemeclusterbreak"] then some graphemeBreakSets
  else if name ∈ ["wb", "wordbreak"] then some wordBreakSets
  else if name ∈ ["sb", "sentencebreak"] then some sentenceBreakSets
  else none

/-- The characters that have a property. A name alone is that of a category, a property that holds
or does not hold, or a script. -/
def CharProperty.set? : CharProperty → Option NamedSet
  | .named name => findSet? (categorySets ++ binarySets ++ scriptSets) (looseName name)
  | .valued name value => do
      let sets ← valueSets? (looseName name)
      findSet? sets (looseName value)

end SqlMapper.Pattern
