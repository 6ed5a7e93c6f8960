import Highlighter.Unicode.CodeSet

/-! Blocks: the named stretches into which the code points are divided. -/

namespace Highlighter.Unicode

/-- Blocks by their names, in lower case and without blanks, dashes and underscores. -/
def blocks : List (String × Nat × Nat) := [
  ("basiclatin", 0x0, 0x7f), ("latin1supplement", 0x80, 0xff), ("latinextendeda", 0x100, 0x17f),
  ("latinextendedb", 0x180, 0x24f), ("ipaextensions", 0x250, 0x2af),
  ("spacingmodifierletters", 0x2b0, 0x2ff), ("combiningdiacriticalmarks", 0x300, 0x36f),
  ("greekandcoptic", 0x370, 0x3ff), ("cyrillic", 0x400, 0x4ff),
  ("cyrillicsupplement", 0x500, 0x52f), ("armenian", 0x530, 0x58f), ("hebrew", 0x590, 0x5ff),
  ("arabic", 0x600, 0x6ff), ("syriac", 0x700, 0x74f), ("arabicsupplement", 0x750, 0x77f),
  ("thaana", 0x780, 0x7bf), ("nko", 0x7c0, 0x7ff), ("samaritan", 0x800, 0x83f),
  ("mandaic", 0x840, 0x85f), ("syriacsupplement", 0x860, 0x86f),
  ("arabicextendedb", 0x870, 0x89f), ("arabicextendeda", 0x8a0, 0x8ff),
  ("devanagari", 0x900, 0x97f), ("bengali", 0x980, 0x9ff), ("gurmukhi", 0xa00, 0xa7f),
  ("gujarati", 0xa80, 0xaff), ("oriya", 0xb00, 0xb7f), ("tamil", 0xb80, 0xbff),
  ("telugu", 0xc00, 0xc7f), ("kannada", 0xc80, 0xcff), ("malayalam", 0xd00, 0xd7f),
  ("sinhala", 0xd80, 0xdff), ("thai", 0xe00, 0xe7f), ("lao", 0xe80, 0xeff),
  ("tibetan", 0xf00, 0xfff), ("myanmar", 0x1000, 0x109f), ("georgian", 0x10a0, 0x10ff),
  ("hanguljamo", 0x1100, 0x11ff), ("ethiopic", 0x1200, 0x137f),
  ("ethiopicsupplement", 0x1380, 0x139f), ("cherokee", 0x13a0, 0x13ff),
  ("unifiedcanadianaboriginalsyllabics", 0x1400, 0x167f), ("ogham", 0x1680, 0x169f),
  ("runic", 0x16a0, 0x16ff), ("tagalog", 0x1700, 0x171f), ("hanunoo", 0x1720, 0x173f),
  ("buhid", 0x1740, 0x175f), ("tagbanwa", 0x1760, 0x177f), ("khmer", 0x1780, 0x17ff),
  ("mongolian", 0x1800, 0x18af), ("unifiedcanadianaboriginalsyllabicsextended", 0x18b0, 0x18ff),
  ("limbu", 0x1900, 0x194f), ("taile", 0x1950, 0x197f), ("newtailue", 0x1980, 0x19df),
  ("khmersymbols", 0x19e0, 0x19ff), ("buginese", 0x1a00, 0x1a1f), ("taitham", 0x1a20, 0x1aaf),
  ("combiningdiacriticalmarksextended", 0x1ab0, 0x1aff), ("balinese", 0x1b00, 0x1b7f),
  ("sundanese", 0x1b80, 0x1bbf), ("batak", 0x1bc0, 0x1bff), ("lepcha", 0x1c00, 0x1c4f),
  ("olchiki", 0x1c50, 0x1c7f), ("cyrillicextendedc", 0x1c80, 0x1c8f),
  ("georgianextended", 0x1c90, 0x1cbf), ("sundanesesupplement", 0x1cc0, 0x1ccf),
  ("vedicextensions", 0x1cd0, 0x1cff), ("phoneticextensions", 0x1d00, 0x1d7f),
  ("phoneticextensionssupplement", 0x1d80, 0x1dbf),
  ("combiningdiacriticalmarkssupplement", 0x1dc0, 0x1dff),
  ("latinextendedadditional", 0x1e00, 0x1eff), ("greekextended", 0x1f00, 0x1fff),
  ("generalpunctuation", 0x2000, 0x206f), ("superscriptsandsubscripts", 0x2070, 0x209f),
  ("currencysymbols", 0x20a0, 0x20cf), ("combiningdiacriticalmarksforsymbols", 0x20d0, 0x20ff),
  ("letterlikesymbols", 0x2100, 0x214f), ("numberforms", 0x2150, 0x218f),
  ("arrows", 0x2190, 0x21ff), ("mathematicaloperators", 0x2200, 0x22ff),
  ("miscellaneoustechnical", 0x2300, 0x23ff), ("controlpictures", 0x2400, 0x243f),
  ("opticalcharacterrecognition", 0x2440, 0x245f), ("enclosedalphanumerics", 0x2460, 0x24ff),
  ("boxdrawing", 0x2500, 0x257f), ("blockelements", 0x2580, 0x259f),
  ("geometricshapes", 0x25a0, 0x25ff), ("miscellaneoussymbols", 0x2600, 0x26ff),
  ("dingbats", 0x2700, 0x27bf), ("miscellaneousmathematicalsymbolsa", 0x27c0, 0x27ef),
  ("supplementalarrowsa", 0x27f0, 0x27ff), ("braillepatterns", 0x2800, 0x28ff),
  ("supplementalarrowsb", 0x2900, 0x297f), ("miscellaneousmathematicalsymbolsb", 0x2980, 0x29ff),
  ("supplementalmathematicaloperators", 0x2a00, 0x2aff),
  ("miscellaneoussymbolsandarrows", 0x2b00, 0x2bff), ("glagolitic", 0x2c00, 0x2c5f),
  ("latinextendedc", 0x2c60, 0x2c7f), ("coptic", 0x2c80, 0x2cff),
  ("georgiansupplement", 0x2d00, 0x2d2f), ("tifinagh", 0x2d30, 0x2d7f),
  ("ethiopicextended", 0x2d80, 0x2ddf), ("cyrillicextendeda", 0x2de0, 0x2dff),
  ("supplementalpunctuation", 0x2e00, 0x2e7f), ("cjkradicalssupplement", 0x2e80, 0x2eff),
  ("kangxiradicals", 0x2f00, 0x2fdf), ("ideographicdescriptioncharacters", 0x2ff0, 0x2fff),
  ("cjksymbolsandpunctuation", 0x3000, 0x303f), ("hiragana", 0x3040, 0x309f),
  ("katakana", 0x30a0, 0x30ff), ("bopomofo", 0x3100, 0x312f),
  ("hangulcompatibilityjamo", 0x3130, 0x318f), ("kanbun", 0x3190, 0x319f),
  ("bopomofoextended", 0x31a0, 0x31bf), ("cjkstrokes", 0x31c0, 0x31ef),
  ("katakanaphoneticextensions", 0x31f0, 0x31ff), ("enclosedcjklettersandmonths", 0x3200, 0x32ff),
  ("cjkcompatibility", 0x3300, 0x33ff), ("cjkunifiedideographsextensiona", 0x3400, 0x4dbf),
  ("yijinghexagramsymbols", 0x4dc0, 0x4dff), ("cjkunifiedideographs", 0x4e00, 0x9fff),
  ("yisyllables", 0xa000, 0xa48f), ("yiradicals", 0xa490, 0xa4cf), ("lisu", 0xa4d0, 0xa4ff),
  ("vai", 0xa500, 0xa63f), ("cyrillicextendedb", 0xa640, 0xa69f), ("bamum", 0xa6a0, 0xa6ff),
  ("modifiertoneletters", 0xa700, 0xa71f), ("latinextendedd", 0xa720, 0xa7ff),
  ("sylotinagri", 0xa800, 0xa82f), ("commonindicnumberforms", 0xa830, 0xa83f),
  ("phagspa", 0xa840, 0xa87f), ("saurashtra", 0xa880, 0xa8df),
  ("devanagariextended", 0xa8e0, 0xa8ff), ("kayahli", 0xa900, 0xa92f), ("rejang", 0xa930, 0xa95f),
  ("hanguljamoextendeda", 0xa960, 0xa97f), ("javanese", 0xa980, 0xa9df),
  ("myanmarextendedb", 0xa9e0, 0xa9ff), ("cham", 0xaa00, 0xaa5f),
  ("myanmarextendeda", 0xaa60, 0xaa7f), ("taiviet", 0xaa80, 0xaadf),
  ("meeteimayekextensions", 0xaae0, 0xaaff), ("ethiopicextendeda", 0xab00, 0xab2f),
  ("latinextendede", 0xab30, 0xab6f), ("cherokeesupplement", 0xab70, 0xabbf),
  ("meeteimayek", 0xabc0, 0xabff), ("hangulsyllables", 0xac00, 0xd7af),
  ("hanguljamoextendedb", 0xd7b0, 0xd7ff), ("highsurrogates", 0xd800, 0xdb7f),
  ("highprivateusesurrogates", 0xdb80, 0xdbff), ("lowsurrogates", 0xdc00, 0xdfff),
  ("privateusearea", 0xe000, 0xf8ff), ("cjkcompatibilityideographs", 0xf900, 0xfaff),
  ("alphabeticpresentationforms", 0xfb00, 0xfb4f), ("arabicpresentationformsa", 0xfb50, 0xfdff),
  ("variationselectors", 0xfe00, 0xfe0f), ("verticalforms", 0xfe10, 0xfe1f),
  ("combininghalfmarks", 0xfe20, 0xfe2f), ("cjkcompatibilityforms", 0xfe30, 0xfe4f),
  ("smallformvariants", 0xfe50, 0xfe6f), ("arabicpresentationformsb", 0xfe70, 0xfeff),
  ("halfwidthandfullwidthforms", 0xff00, 0xffef), ("specials", 0xfff0, 0xffff),
  ("linearbsyllabary", 0x10000, 0x1007f), ("linearbideograms", 0x10080, 0x100ff),
  ("aegeannumbers", 0x10100, 0x1013f), ("ancientgreeknumbers", 0x10140, 0x1018f),
  ("ancientsymbols", 0x10190, 0x101cf), ("phaistosdisc", 0x101d0, 0x101ff),
  ("lycian", 0x10280, 0x1029f), ("carian", 0x102a0, 0x102df),
  ("copticepactnumbers", 0x102e0, 0x102ff), ("olditalic", 0x10300, 0x1032f),
  ("gothic", 0x10330, 0x1034f), ("oldpermic", 0x10350, 0x1037f), ("ugaritic", 0x10380, 0x1039f),
  ("oldpersian", 0x103a0, 0x103df), ("deseret", 0x10400, 0x1044f), ("shavian", 0x10450, 0x1047f),
  ("osmanya", 0x10480, 0x104af), ("osage", 0x104b0, 0x104ff), ("elbasan", 0x10500, 0x1052f),
  ("caucasianalbanian", 0x10530, 0x1056f), ("vithkuqi", 0x10570, 0x105bf),
  ("todhri", 0x105c0, 0x105ff), ("lineara", 0x10600, 0x1077f),
  ("latinextendedf", 0x10780, 0x107bf), ("cypriotsyllabary", 0x10800, 0x1083f),
  ("imperialaramaic", 0x10840, 0x1085f), ("palmyrene", 0x10860, 0x1087f),
  ("nabataean", 0x10880, 0x108af), ("hatran", 0x108e0, 0x108ff), ("phoenician", 0x10900, 0x1091f),
  ("lydian", 0x10920, 0x1093f), ("meroitichieroglyphs", 0x10980, 0x1099f),
  ("meroiticcursive", 0x109a0, 0x109ff), ("kharoshthi", 0x10a00, 0x10a5f),
  ("oldsoutharabian", 0x10a60, 0x10a7f), ("oldnortharabian", 0x10a80, 0x10a9f),
  ("manichaean", 0x10ac0, 0x10aff), ("avestan", 0x10b00, 0x10b3f),
  ("inscriptionalparthian", 0x10b40, 0x10b5f), ("inscriptionalpahlavi", 0x10b60, 0x10b7f),
  ("psalterpahlavi", 0x10b80, 0x10baf), ("oldturkic", 0x10c00, 0x10c4f),
  ("oldhungarian", 0x10c80, 0x10cff), ("hanifirohingya", 0x10d00, 0x10d3f),
  ("garay", 0x10d40, 0x10d8f), ("ruminumeralsymbols", 0x10e60, 0x10e7f),
  ("yezidi", 0x10e80, 0x10ebf), ("arabicextendedc", 0x10ec0, 0x10eff),
  ("oldsogdian", 0x10f00, 0x10f2f), ("sogdian", 0x10f30, 0x10f6f),
  ("olduyghur", 0x10f70, 0x10faf), ("chorasmian", 0x10fb0, 0x10fdf),
  ("elymaic", 0x10fe0, 0x10fff), ("brahmi", 0x11000, 0x1107f), ("kaithi", 0x11080, 0x110cf),
  ("sorasompeng", 0x110d0, 0x110ff), ("chakma", 0x11100, 0x1114f), ("mahajani", 0x11150, 0x1117f),
  ("sharada", 0x11180, 0x111df), ("sinhalaarchaicnumbers", 0x111e0, 0x111ff),
  ("khojki", 0x11200, 0x1124f), ("multani", 0x11280, 0x112af), ("khudawadi", 0x112b0, 0x112ff),
  ("grantha", 0x11300, 0x1137f), ("tulutigalari", 0x11380, 0x113ff), ("newa", 0x11400, 0x1147f),
  ("tirhuta", 0x11480, 0x114df), ("siddham", 0x11580, 0x115ff), ("modi", 0x11600, 0x1165f),
  ("mongoliansupplement", 0x11660, 0x1167f), ("takri", 0x11680, 0x116cf),
  ("myanmarextendedc", 0x116d0, 0x116ff), ("ahom", 0x11700, 0x1174f), ("dogra", 0x11800, 0x1184f),
  ("warangciti", 0x118a0, 0x118ff), ("divesakuru", 0x11900, 0x1195f),
  ("nandinagari", 0x119a0, 0x119ff), ("zanabazarsquare", 0x11a00, 0x11a4f),
  ("soyombo", 0x11a50, 0x11aaf),
  ("unifiedcanadianaboriginalsyllabicsextendeda", 0x11ab0, 0x11abf),
  ("paucinhau", 0x11ac0, 0x11aff), ("devanagariextendeda", 0x11b00, 0x11b5f),
  ("sunuwar", 0x11bc0, 0x11bff), ("bhaiksuki", 0x11c00, 0x11c6f), ("marchen", 0x11c70, 0x11cbf),
  ("masaramgondi", 0x11d00, 0x11d5f), ("gunjalagondi", 0x11d60, 0x11daf),
  ("makasar", 0x11ee0, 0x11eff), ("kawi", 0x11f00, 0x11f5f), ("lisusupplement", 0x11fb0, 0x11fbf),
  ("tamilsupplement", 0x11fc0, 0x11fff), ("cuneiform", 0x12000, 0x123ff),
  ("cuneiformnumbersandpunctuation", 0x12400, 0x1247f),
  ("earlydynasticcuneiform", 0x12480, 0x1254f), ("cyprominoan", 0x12f90, 0x12fff),
  ("egyptianhieroglyphs", 0x13000, 0x1342f),
  ("egyptianhieroglyphformatcontrols", 0x13430, 0x1345f),
  ("egyptianhieroglyphsextendeda", 0x13460, 0x143ff), ("anatolianhieroglyphs", 0x14400, 0x1467f),
  ("gurungkhema", 0x16100, 0x1613f), ("bamumsupplement", 0x16800, 0x16a3f),
  ("mro", 0x16a40, 0x16a6f), ("tangsa", 0x16a70, 0x16acf), ("bassavah", 0x16ad0, 0x16aff),
  ("pahawhhmong", 0x16b00, 0x16b8f), ("kiratrai", 0x16d40, 0x16d7f),
  ("medefaidrin", 0x16e40, 0x16e9f), ("miao", 0x16f00, 0x16f9f),
  ("ideographicsymbolsandpunctuation", 0x16fe0, 0x16fff), ("tangut", 0x17000, 0x187ff),
  ("tangutcomponents", 0x18800, 0x18aff), ("khitansmallscript", 0x18b00, 0x18cff),
  ("tangutsupplement", 0x18d00, 0x18d7f), ("kanaextendedb", 0x1aff0, 0x1afff),
  ("kanasupplement", 0x1b000, 0x1b0ff), ("kanaextendeda", 0x1b100, 0x1b12f),
  ("smallkanaextension", 0x1b130, 0x1b16f), ("nushu", 0x1b170, 0x1b2ff),
  ("duployan", 0x1bc00, 0x1bc9f), ("shorthandformatcontrols", 0x1bca0, 0x1bcaf),
  ("symbolsforlegacycomputingsupplement", 0x1cc00, 0x1cebf),
  ("znamennymusicalnotation", 0x1cf00, 0x1cfcf), ("byzantinemusicalsymbols", 0x1d000, 0x1d0ff),
  ("musicalsymbols", 0x1d100, 0x1d1ff), ("ancientgreekmusicalnotation", 0x1d200, 0x1d24f),
  ("kaktoviknumerals", 0x1d2c0, 0x1d2df), ("mayannumerals", 0x1d2e0, 0x1d2ff),
  ("taixuanjingsymbols", 0x1d300, 0x1d35f), ("countingrodnumerals", 0x1d360, 0x1d37f),
  ("mathematicalalphanumericsymbols", 0x1d400, 0x1d7ff), ("suttonsignwriting", 0x1d800, 0x1daaf),
  ("latinextendedg", 0x1df00, 0x1dfff), ("glagoliticsupplement", 0x1e000, 0x1e02f),
  ("cyrillicextendedd", 0x1e030, 0x1e08f), ("nyiakengpuachuehmong", 0x1e100, 0x1e14f),
  ("toto", 0x1e290, 0x1e2bf), ("wancho", 0x1e2c0, 0x1e2ff), ("nagmundari", 0x1e4d0, 0x1e4ff),
  ("olonal", 0x1e5d0, 0x1e5ff), ("ethiopicextendedb", 0x1e7e0, 0x1e7ff),
  ("mendekikakui", 0x1e800, 0x1e8df), ("adlam", 0x1e900, 0x1e95f),
  ("indicsiyaqnumbers", 0x1ec70, 0x1ecbf), ("ottomansiyaqnumbers", 0x1ed00, 0x1ed4f),
  ("arabicmathematicalalphabeticsymbols", 0x1ee00, 0x1eeff), ("mahjongtiles", 0x1f000, 0x1f02f),
  ("dominotiles", 0x1f030, 0x1f09f), ("playingcards", 0x1f0a0, 0x1f0ff),
  ("enclosedalphanumericsupplement", 0x1f100, 0x1f1ff),
  ("enclosedideographicsupplement", 0x1f200, 0x1f2ff),
  ("miscellaneoussymbolsandpictographs", 0x1f300, 0x1f5ff), ("emoticons", 0x1f600, 0x1f64f),
  ("ornamentaldingbats", 0x1f650, 0x1f67f), ("transportandmapsymbols", 0x1f680, 0x1f6ff),
  ("alchemicalsymbols", 0x1f700, 0x1f77f), ("geometricshapesextended", 0x1f780, 0x1f7ff),
  ("supplementalarrowsc", 0x1f800, 0x1f8ff),
  ("supplementalsymbolsandpictographs", 0x1f900, 0x1f9ff), ("chesssymbols", 0x1fa00, 0x1fa6f),
  ("symbolsandpictographsextendeda", 0x1fa70, 0x1faff),
  ("symbolsforlegacycomputing", 0x1fb00, 0x1fbff),
  ("cjkunifiedideographsextensionb", 0x20000, 0x2a6df),
  ("cjkunifiedideographsextensionc", 0x2a700, 0x2b73f),
  ("cjkunifiedideographsextensiond", 0x2b740, 0x2b81f),
  ("cjkunifiedideographsextensione", 0x2b820, 0x2ceaf),
  ("cjkunifiedideographsextensionf", 0x2ceb0, 0x2ebef),
  ("cjkunifiedideographsextensioni", 0x2ebf0, 0x2ee5f),
  ("cjkcompatibilityideographssupplement", 0x2f800, 0x2fa1f),
  ("cjkunifiedideographsextensiong", 0x30000, 0x3134f),
  ("cjkunifiedideographsextensionh", 0x31350, 0x323af), ("tags", 0xe0000, 0xe007f),
  ("variationselectorssupplement", 0xe0100, 0xe01ef),
  ("supplementaryprivateuseareaa", 0xf0000, 0xfffff),
  ("supplementaryprivateuseareab", 0x100000, 0x10ffff)]

/-- A block under its name after the letters `in`, or what belongs to no block. -/
def block? (name : String) : Option CodeSet :=
  match name.toList with
  | 'i' :: 'n' :: rest =>
    let name := String.ofList rest
    if name == "noblock" then
      some (CodeSet.ofRanges (blocks.map fun b => (b.2.1, b.2.2))).compl
    else (blocks.lookup name).map fun b => .range b.1 b.2
  | _ => none

end Highlighter.Unicode
