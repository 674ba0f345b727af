import SchemaAtlas.Fault

/-!
Sample schemas, one in each dialect.
-/

set_option autoImplicit false

namespace SchemaAtlas

inductive Sample
  | drizzle
  | prisma
  deriving DecidableEq, Repr

namespace Sample

def all : List Sample := [.drizzle, .prisma]

def label : Sample → String
  | .drizzle => "drizzle"
  | .prisma => "prisma"

def ofLabel? (label : String) : Option Sample := all.find? (·.label = label)

@[simp] theorem ofLabel?_label (sample : Sample) : ofLabel? sample.label = some sample := by
  cases sample <;> rfl

def clubText : String := joinWith "\n" [
    "import \x7b pgTable, uuid, text, varchar, timestamp, integer, numeric, jsonb, pgEnum, " ++
      "boolean, index, uniqueIndex \x7d from 'drizzle-orm/pg-core';",
    "import \x7b relations \x7d from 'drizzle-orm';",
    "",
    "// Audit Schema",
    "const auditSchema = \x7b",
    "  createdAt: timestamp('created_at').defaultNow().notNull(),",
    "  createdBy: uuid('created_by'),",
    "  updatedAt: timestamp('updated_at').defaultNow().notNull(),",
    "  updatedBy: uuid('updated_by'),",
    "\x7d;",
    "",
    "// Enums",
    "export const clubMemberRoleEnum = pgEnum('club_member_role', ['owner', 'manager', 'agent', " ++
      "'player']);",
    "export const clubMemberStatusEnum = pgEnum('club_member_status', ['pending_approval', " ++
      "'approved', 'suspended', 'banned']);",
    "export const chipTransactionTypeEnum = pgEnum('chip_transaction_type', ['game_buy_in', " ++
      "'game_cash_out', 'rake_collection', 'transfer', 'deposit', 'withdraw', 'bonus', 'penalty', " ++
      "'refund']);",
    "export const chipRequestTypeEnum = pgEnum('chip_request_type', ['deposit', 'withdraw']);",
    "export const chipRequestStatusEnum = pgEnum('chip_request_status', ['pending', 'approved', " ++
      "'rejected', 'processed']);",
    "export const clubRoomStatusEnum = pgEnum('club_room_status', ['waiting', 'active', 'paused', " ++
      "'completed']);",
    "export const gameTypeEnum = pgEnum('game_type', ['NLH', 'PLO', 'PLO5', 'PLO6', 'MIXED']);",
    "export const handStatusEnum = pgEnum('hand_status', ['in_progress', 'completed', 'cancelled']);",
    "export const handPhaseEnum = pgEnum('game_phase', ['waiting', 'preflop', 'flop', 'turn', " ++
      "'river', 'showdown', 'finished', 'collecting_chips', 'awarding_pot']);",
    "export const authProviderEnum = pgEnum('auth_provider', ['google', 'twitter', 'facebook', " ++
      "'discord']);",
    "",
    "// Tables",
    "export const clubUsers = pgTable('club_users', \x7b",
    "  id: uuid('id').primaryKey().defaultRandom(),",
    "  email: varchar('email', \x7b length: 255 \x7d).notNull().unique(),",
    "  name: varchar('name', \x7b length: 100 \x7d).notNull(),",
    "  avatarUrl: text('avatar_url'),",
    "  authProvider: authProviderEnum('auth_provider').notNull(),",
    "  authProviderId: varchar('auth_provider_id', \x7b length: 255 \x7d).notNull(),",
    "  ...auditSchema,",
    "\x7d);",
    "",
    "export const clubs = pgTable('clubs', \x7b",
    "  id: uuid('id').primaryKey().defaultRandom(),",
    "  ownerId: uuid('owner_id').notNull(),",
    "  name: varchar('name', \x7b length: 100 \x7d).notNull(),",
    "  uniqueName: varchar('unique_name', \x7b length: 100 \x7d).notNull().unique(),",
    "  inviteCode: varchar('invite_code', \x7b length: 20 \x7d).notNull().unique(),",
    "  ...auditSchema,",
    "\x7d);",
    "",
    "export const clubMembers = pgTable('club_members', \x7b",
    "  id: uuid('id').primaryKey().defaultRandom(),",
    "  clubId: uuid('club_id').notNull(),",
    "  userId: uuid('user_id').notNull(),",
    "  role: clubMemberRoleEnum('role').notNull().default('player'),",
    "  status: clubMemberStatusEnum('status').notNull().default('pending_approval'),",
    "  ...auditSchema,",
    "\x7d);",
    "",
    "// Relations",
    "export const clubsRelations = relations(clubs, (\x7b one, many \x7d) => (\x7b",
    "  owner: one(clubUsers, \x7b",
    "    fields: [clubs.ownerId],",
    "    references: [clubUsers.id],",
    "  \x7d),",
    "\x7d));",
    "",
    "export const clubMembersRelations = relations(clubMembers, (\x7b one, many \x7d) => " ++
      "(\x7b",
    "  club: one(clubs, \x7b",
    "    fields: [clubMembers.clubId],",
    "    references: [clubs.id],",
    "  \x7d),",
    "  user: one(clubUsers, \x7b",
    "    fields: [clubMembers.userId],",
    "    references: [clubUsers.id],",
    "  \x7d),",
    "\x7d));",
    "",
    "// Indexes",
    "export const clubMembersClubIdIdx = index('club_members_club_id_idx').on(clubMembers.clubId);",
    "export const clubMembersUniqueIdx = uniqueIndex('club_members_club_user_unique_idx').on(clubMembers.clubId, " ++
      "clubMembers.userId);",
    ""]

def blogText : String := joinWith "\n" [
    "// Prisma Schema Example for PostgreSQL",
    "generator client \x7b",
    "  provider = \"prisma-client-js\"",
    "\x7d",
    "",
    "datasource db \x7b",
    "  provider = \"postgresql\"",
    "  url      = env(\"DATABASE_URL\")",
    "\x7d",
    "",
    "// Enums",
    "enum Role \x7b",
    "  USER",
    "  ADMIN",
    "  MODERATOR",
    "\x7d",
    "",
    "enum PostStatus \x7b",
    "  DRAFT",
    "  PUBLISHED",
    "  ARCHIVED",
    "\x7d",
    "",
    "enum AuthProvider \x7b",
    "  GOOGLE",
    "  TWITTER",
    "  FACEBOOK",
    "  DISCORD",
    "\x7d",
    "",
    "// Models",
    "model User \x7b",
    "  id            String    @id @default(uuid())",
    "  email         String    @unique",
    "  name          String?",
    "  role          Role      @default(USER)",
    "  authProvider  AuthProvider",
    "  createdAt     DateTime  @default(now())",
    "  updatedAt     DateTime  @updatedAt",
    "",
    "  // Relations",
    "  posts         Post[]",
    "  comments      Comment[]",
    "  profile       Profile?",
    "  sessions      Session[]",
    "",
    "  @@index([email])",
    "  @@index([role])",
    "\x7d",
    "",
    "model Profile \x7b",
    "  id        String   @id @default(uuid())",
    "  userId    String   @unique",
    "  bio       String?",
    "  avatar    String?",
    "  website   String?",
    "  createdAt DateTime @default(now())",
    "  updatedAt DateTime @updatedAt",
    "",
    "  // Relations",
    "  user      User     @relation(fields: [userId], references: [id], onDelete: Cascade)",
    "\x7d",
    "",
    "model Post \x7b",
    "  id          String     @id @default(uuid())",
    "  title       String     @db.VarChar(255)",
    "  content     String?    @db.Text",
    "  status      PostStatus @default(DRAFT)",
    "  published   Boolean    @default(false)",
    "  authorId    String",
    "  categoryId  String?",
    "  views       Int        @default(0)",
    "  createdAt   DateTime   @default(now())",
    "  updatedAt   DateTime   @updatedAt",
    "  publishedAt DateTime?",
    "",
    "  // Relations",
    "  author      User       @relation(fields: [authorId], references: [id], onDelete: Cascade)",
    "  category    Category?  @relation(fields: [categoryId], references: [id])",
    "  comments    Comment[]",
    "  tags        PostTag[]",
    "",
    "  @@index([authorId])",
    "  @@index([categoryId])",
    "  @@index([status, published])",
    "  @@unique([authorId, title])",
    "\x7d",
    "",
    "model Category \x7b",
    "  id          String   @id @default(uuid())",
    "  name        String   @unique",
    "  slug        String   @unique",
    "  description String?",
    "  createdAt   DateTime @default(now())",
    "  updatedAt   DateTime @updatedAt",
    "",
    "  // Relations",
    "  posts       Post[]",
    "\x7d",
    "",
    "model Tag \x7b",
    "  id        String    @id @default(uuid())",
    "  name      String    @unique",
    "  slug      String    @unique",
    "  createdAt DateTime  @default(now())",
    "",
    "  // Relations",
    "  posts     PostTag[]",
    "\x7d",
    "",
    "model PostTag \x7b",
    "  postId    String",
    "  tagId     String",
    "  createdAt DateTime @default(now())",
    "",
    "  // Relations",
    "  post      Post     @relation(fields: [postId], references: [id], onDelete: Cascade)",
    "  tag       Tag      @relation(fields: [tagId], references: [id], onDelete: Cascade)",
    "",
    "  @@id([postId, tagId])",
    "  @@index([postId])",
    "  @@index([tagId])",
    "\x7d",
    "",
    "model Comment \x7b",
    "  id        String   @id @default(uuid())",
    "  content   String   @db.Text",
    "  postId    String",
    "  authorId  String",
    "  parentId  String?",
    "  createdAt DateTime @default(now())",
    "  updatedAt DateTime @updatedAt",
    "",
    "  // Relations",
    "  post      Post      @relation(fields: [postId], references: [id], onDelete: Cascade)",
    "  author    User      @relation(fields: [authorId], references: [id], onDelete: Cascade)",
    "  parent    Comment?  @relation(\"CommentReplies\", fields: [parentId], references: " ++
      "[id])",
    "  replies   Comment[] @relation(\"CommentReplies\")",
    "",
    "  @@index([postId])",
    "  @@index([authorId])",
    "  @@index([parentId])",
    "\x7d",
    "",
    "model Session \x7b",
    "  id        String   @id @default(uuid())",
    "  userId    String",
    "  token     String   @unique",
    "  expiresAt DateTime",
    "  createdAt DateTime @default(now())",
    "",
    "  // Relations",
    "  user      User     @relation(fields: [userId], references: [id], onDelete: Cascade)",
    "",
    "  @@index([userId])",
    "  @@index([token])",
    "  @@index([expiresAt])",
    "\x7d",
    ""]

def text : Sample → String
  | .drizzle => clubText
  | .prisma => blogText

end Sample

end SchemaAtlas
